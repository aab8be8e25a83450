import StepScope.Json.Skip
import StepScope.Proofs.Json

/-!
What well-formed JSON is, and that a value nobody asks for is passed over as a whole, however it is spelled
and however deep it is nested.
-/

namespace StepScope.Json

/-- White space and nothing else. -/
def Blank (t : Text) : Prop := ∀ c ∈ t, isBlank c = true

theorem Blank.nil : Blank [] := List.forall_mem_nil _

theorem skipBlank_append {u : Text} (h : Blank u) (s : Text) : skipBlank (u ++ s) = skipBlank s :=
  List.dropWhile_append_of_pos h

theorem head_skipBlank {s s' : Text} {c : Char} (h : skipBlank s = c :: s') : isBlank c = false := by
  have hhead := List.head?_dropWhile_not isBlank s
  rw [show s.dropWhile isBlank = c :: s' from h] at hhead
  simpa using hhead

@[simp] theorem skipBlank_skipBlank (s : Text) : skipBlank (skipBlank s) = skipBlank s := by
  cases h : skipBlank s with
  | nil => rfl
  | cons c s' => exact skipBlank_cons (head_skipBlank h) s'

/-! Numbers -/

inductive Fraction : Text → Prop
  | none : Fraction []
  | digits {t : Text} (h : Digits t) : Fraction ('.' :: t)

inductive Scale : Text → Prop
  | none : Scale []
  | digits {mark : Char} {sign t : Text} (hmark : mark = 'e' ∨ mark = 'E')
      (hsign : sign = [] ∨ sign = ['+'] ∨ sign = ['-']) (h : Digits t) : Scale (mark :: (sign ++ t))

inductive IsNumber : Text → Prop
  | parts {sign whole fraction scale : Text} (hsign : sign = [] ∨ sign = ['-']) (hwhole : Whole whole)
      (hfraction : Fraction fraction) (hscale : Scale scale) :
      IsNumber (sign ++ (whole ++ (fraction ++ scale)))

theorem Digits.head? {t : Text} (h : Digits t) (s : Text) :
    ∃ c, (t ++ s).head? = some c ∧ c.isDigit = true := by
  obtain ⟨c, t, rfl⟩ := List.exists_cons_of_ne_nil h.1
  exact ⟨c, rfl, h.2 c List.mem_cons_self⟩

theorem Fraction.readFraction {t rest : Text} (h : Fraction t)
    (hrest : ∀ c, rest.head? = some c → c.isDigit = false ∧ c ≠ '.') :
    ∃ digits, readFraction (t ++ rest) = .ok (digits, rest) := by
  cases h with
  | none =>
    refine ⟨[], ?_⟩
    rw [List.nil_append, Json.readFraction]
    rintro s rfl
    exact (hrest '.' rfl).2 rfl
  | digits h => exact ⟨_, h.readDigits fun c hc => (hrest c hc).1⟩

theorem Digits.readExponent {sign t rest : Text} (h : Digits t)
    (hsign : sign = [] ∨ sign = ['+'] ∨ sign = ['-']) (hrest : ∀ c, rest.head? = some c → c.isDigit = false) :
    ∃ e, readExponent (sign ++ (t ++ rest)) = .ok (e, rest) := by
  have hdigits := h.readDigits hrest
  rcases hsign with rfl | rfl | rfl
  · obtain ⟨c, hc, hdigit⟩ := h.head? rest
    refine ⟨(value t : Int), ?_⟩
    rw [List.nil_append, Json.readExponent, hdigits]
    · rfl
    · intro s hs
      rw [hs] at hc
      cases hc
      cases hdigit
    · intro s hs
      rw [hs] at hc
      cases hc
      cases hdigit
  · exact ⟨(value t : Int), by simp [Json.readExponent, hdigits, Except.map]⟩
  · exact ⟨-(value t : Int), by simp [Json.readExponent, hdigits, Except.map]⟩

theorem Scale.readScale {t rest : Text} (h : Scale t)
    (hrest : ∀ c, rest.head? = some c → c.isDigit = false ∧ c ≠ 'e' ∧ c ≠ 'E') :
    ∃ e, readScale (t ++ rest) = .ok (e, rest) := by
  cases h with
  | none =>
    refine ⟨Option.none, ?_⟩
    rw [List.nil_append, Json.readScale]
    · rintro s rfl
      exact (hrest 'e' rfl).2.1 rfl
    · rintro s rfl
      exact (hrest 'E' rfl).2.2 rfl
  | digits hmark hsign h =>
    obtain ⟨e, he⟩ := h.readExponent hsign fun c hc => (hrest c hc).1
    refine ⟨some e, ?_⟩
    rcases hmark with rfl | rfl
    · simp [Json.readScale, he, Except.map]
    · simp [Json.readScale, he, Except.map]

/-- What follows a number up to the blanks behind it. -/
theorem head_of_ends {u rest : Text} (hu : Blank u) (h : Ends rest) {c : Char}
    (hc : (u ++ rest).head? = some c) : c.isDigit = false ∧ c ≠ '.' ∧ c ≠ 'e' ∧ c ≠ 'E' := by
  cases u with
  | nil => cases h <;> cases hc <;> decide
  | cons b u =>
    cases hc
    have hblank := hu c List.mem_cons_self
    simp only [isBlank, Bool.or_eq_true, decide_eq_true_eq] at hblank
    rcases hblank with ((rfl | rfl) | rfl) | rfl <;> decide

/-- A number is read to its end, whatever its size. -/
theorem IsNumber.readLiteral {t rest : Text} (h : IsNumber t)
    (hrest : ∀ c, rest.head? = some c → c.isDigit = false ∧ c ≠ '.' ∧ c ≠ 'e' ∧ c ≠ 'E') :
    ∃ literal, readLiteral (t ++ rest) = .ok (literal, rest) := by
  obtain ⟨hsign, hwhole, hfraction, hscale⟩ := h
  rename_i sign whole fraction scale
  have hafterScale : ∀ c, (scale ++ rest).head? = some c → c.isDigit = false ∧ c ≠ '.' := by
    intro c hc
    cases hscale with
    | none => exact ⟨(hrest c hc).1, (hrest c hc).2.1⟩
    | digits hmark => rcases hmark with rfl | rfl <;> cases hc <;> decide
  have hafterFraction : ∀ c, (fraction ++ (scale ++ rest)).head? = some c → c.isDigit = false := by
    intro c hc
    cases hfraction with
    | none => exact (hafterScale c hc).1
    | digits => cases hc; rfl
  have hunsigned : ∀ negative, ∃ literal,
      readUnsigned negative (whole ++ (fraction ++ (scale ++ rest))) = .ok (literal, rest) := by
    intro negative
    obtain ⟨digits, hdigits⟩ := hfraction.readFraction hafterScale
    obtain ⟨e, he⟩ := hscale.readScale fun c hc => ⟨(hrest c hc).1, (hrest c hc).2.2⟩
    refine ⟨⟨negative, whole, digits, e⟩, ?_⟩
    rw [readUnsigned, hwhole.readWhole hafterFraction]
    simp only [bind, Except.bind, hdigits, he]
    rfl
  simp only [List.append_assoc]
  rcases hsign with rfl | rfl
  · obtain ⟨literal, hliteral⟩ := hunsigned false
    refine ⟨literal, ?_⟩
    rw [← hliteral, List.nil_append, Json.readLiteral]
    intro s hs
    cases hwhole with
    | zero => cases hs
    | digits h =>
      obtain ⟨c, hc, hdigit⟩ := h.head? (fraction ++ (scale ++ rest))
      rw [hs] at hc
      cases hc
      cases hdigit
  · exact hunsigned true

/-! Strings -/

/-- What may stand between the quotation marks of a string. -/
inductive IsText : Text → Prop
  | nil : IsText []
  | plain {c : Char} {t : Text} (hc : isPlain c = true) (h : IsText t) : IsText (c :: t)
  | escape {c : Char} {t : Text} (hc : c ∈ ['"', '\\', '/', 'b', 'f', 'n', 'r', 't']) (h : IsText t) :
      IsText ('\\' :: c :: t)
  /-- A code unit, which may be one half of a pair without the other. -/
  | unit {digits t : Text} (hlength : digits.length = 4)
      (hdigits : ∀ c ∈ digits, c ∈ "0123456789abcdefABCDEF".toList) (h : IsText t) :
      IsText ('\\' :: 'u' :: (digits ++ t))

theorem isSome_escaped? {c : Char} (h : c ∈ ['"', '\\', '/', 'b', 'f', 'n', 'r', 't']) :
    (escaped? c).isSome = true := by
  have hall : ['"', '\\', '/', 'b', 'f', 'n', 'r', 't'].all (fun c => (escaped? c).isSome) = true := rfl
  exact List.all_eq_true.1 hall c h

theorem isSome_hexDigit? {c : Char} (h : c ∈ "0123456789abcdefABCDEF".toList) :
    (hexDigit? c).isSome = true := by
  have hall : "0123456789abcdefABCDEF".toList.all (fun c => (hexDigit? c).isSome) = true := rfl
  exact List.all_eq_true.1 hall c h

theorem readUnit_hexDigits {digits : Text} (hlength : digits.length = 4)
    (hdigits : ∀ c ∈ digits, (hexDigit? c).isSome = true) (rest : Text) :
    ∃ unit, readUnit (digits ++ rest) = .ok (unit, rest) := by
  match digits, hlength with
  | [a, b, c, d], _ =>
    simp only [List.forall_mem_cons] at hdigits
    obtain ⟨x, hx⟩ := Option.isSome_iff_exists.1 hdigits.1
    obtain ⟨y, hy⟩ := Option.isSome_iff_exists.1 hdigits.2.1
    obtain ⟨z, hz⟩ := Option.isSome_iff_exists.1 hdigits.2.2.1
    obtain ⟨w, hw⟩ := Option.isSome_iff_exists.1 hdigits.2.2.2.1
    exact ⟨((x * 16 + y) * 16 + z) * 16 + w, by simp [readUnit, hx, hy, hz, hw]⟩

theorem skipText_backslash {s s' : Text} (h : skipEscape s = .ok s') :
    skipText ('\\' :: s) = skipText s' := by
  rw [skipText, if_neg (by decide), if_pos rfl]
  split
  · rename_i hs
    rw [h] at hs
    cases hs
  · rename_i hs
    rw [h] at hs
    cases hs
    rfl

theorem IsText.skipText {t : Text} (h : IsText t) (rest : Text) :
    skipText (t ++ '"' :: rest) = .ok rest := by
  induction h with
  | nil =>
    rw [List.nil_append, Json.skipText]
    rfl
  | plain hc _ ih =>
    simp only [isPlain, Bool.and_eq_true, decide_eq_true_eq] at hc
    rw [List.cons_append, Json.skipText, if_neg hc.1.1, if_neg hc.1.2, if_neg (Nat.not_lt.2 hc.2), ih]
  | escape hc _ ih =>
    rw [List.cons_append, List.cons_append, skipText_backslash, ih]
    rw [skipEscape, if_pos (isSome_escaped? hc)]
  | @unit digits t hlength hdigits _ ih =>
    obtain ⟨unit, hunit⟩ := readUnit_hexDigits hlength (fun c hc => isSome_hexDigit? (hdigits c hc))
      (t ++ '"' :: rest)
    have hescape : skipEscape ('u' :: (digits ++ (t ++ '"' :: rest))) = .ok (t ++ '"' :: rest) := by
      rw [skipEscape, if_neg (by decide), if_pos rfl, hunit]
      rfl
    rw [List.cons_append, List.cons_append, List.append_assoc, skipText_backslash hescape, ih]

/-! Values -/

/-- A member of an object as it is written: its key between the quotation marks, its value, and the blanks
in front of the key and of the colon. -/
structure Property where
  lead : Text := []
  key : Text
  gap : Text := []
  value : Text

namespace Property

def text (e : Property) : Text := e.lead ++ '"' :: (e.key ++ '"' :: (e.gap ++ ':' :: e.value))

/-- The key is a string, and there are blanks where they may be. -/
structure Keyed (e : Property) : Prop where
  lead : Blank e.lead
  key : IsText e.key
  gap : Blank e.gap

end Property

/-- The character that opens a bracket. -/
def Bracket.opening : Bracket → Char
  | .array => '['
  | .object => '\x7b'

/-- Items in brackets, with commas between them and blanks in front, where there may be no item at all. -/
def Bracket.around (bracket : Bracket) (gap : Text) (items : List Text) : Text :=
  bracket.opening :: (gap ++ ((items.intersperse [',']).flatten ++ [bracket.closing]))

theorem Bracket.around_append (bracket : Bracket) (gap : Text) (items : List Text) (s : Text) :
    bracket.around gap items ++ s =
      bracket.opening :: (gap ++ (chain true items ++ bracket.closing :: s)) := by
  simp [around, flatten_intersperse_comma]

/-- Well-formed JSON values of any kind, with blanks around them. -/
inductive IsValue : Text → Prop
  | null : IsValue "null".toList
  | yes : IsValue "true".toList
  | no : IsValue "false".toList
  | number {t : Text} (h : IsNumber t) : IsValue t
  | text {t : Text} (h : IsText t) : IsValue ('"' :: (t ++ ['"']))
  | array {gap : Text} {items : List Text} (hgap : Blank gap) (h : ∀ t ∈ items, IsValue t) :
      IsValue (Bracket.array.around gap items)
  | object {gap : Text} {entries : List Property} (hgap : Blank gap) (hkeys : ∀ e ∈ entries, e.Keyed)
      (h : ∀ e ∈ entries, IsValue e.value) : IsValue (Bracket.object.around gap (entries.map Property.text))
  | padded {t lead trail : Text} (hlead : Blank lead) (h : IsValue t) (htrail : Blank trail) :
      IsValue (lead ++ (t ++ trail))

theorem skip_value_skipBlank (limit : Nat) (outer : List Bracket) (s : Text) :
    skip limit .value outer (skipBlank s) = skip limit .value outer s := by
  cases limit with
  | zero => rfl
  | succ limit => rw [skip, skip, skipBlank_skipBlank]

/-- The value is passed over up to its last blanks, whatever brackets are open around it. -/
def Passed (t : Text) : Prop :=
  ∀ u outer rest limit, Blank u → Ends rest → 2 * (t ++ (u ++ rest)).length < limit →
    ∃ u' limit', Blank u' ∧ 2 * (u' ++ rest).length < limit' ∧
      skip limit .value outer (t ++ (u ++ rest)) = skip limit' .after outer (u' ++ rest)

theorem Passed.padded {t lead trail : Text} (hlead : Blank lead) (h : Passed t) (htrail : Blank trail) :
    Passed (lead ++ (t ++ trail)) := by
  intro u outer rest limit hu hrest hlimit
  have hblank : Blank (trail ++ u) := List.forall_mem_append.2 ⟨htrail, hu⟩
  obtain ⟨u', limit', hu', hlimit', hskip⟩ := h (trail ++ u) outer rest limit hblank hrest (by
    simp only [List.length_append] at hlimit ⊢
    omega)
  refine ⟨u', limit', hu', hlimit', ?_⟩
  rw [← hskip, ← skip_value_skipBlank, List.append_assoc, skipBlank_append hlead, skip_value_skipBlank]
  simp only [List.append_assoc]

/-- A scalar is passed over at once. -/
theorem passed_scalar {t : Text} (hpos : t ≠ [])
    (h : ∀ u outer rest limit, Blank u → Ends rest →
      skip (limit + 1) .value outer (t ++ (u ++ rest)) = skip limit .after outer (u ++ rest)) :
    Passed t := by
  intro u outer rest limit hu hrest hlimit
  have hlength := List.length_pos_of_ne_nil hpos
  rw [List.length_append] at hlimit
  obtain ⟨limit, rfl⟩ := Nat.exists_eq_succ_of_ne_zero (Nat.ne_zero_of_lt hlimit)
  exact ⟨u, limit, hu, by omega, h u outer rest limit hu hrest⟩

/-- A number begins with a character that nothing else begins with. -/
theorem ne_of_number {c : Char} (hc : c = '-' ∨ c.isDigit = true) :
    c ∉ [' ', '\n', '\t', '\r', '[', ']', '\x7b', '"', 'n', 't', 'f'] := by
  intro hmem
  simp only [List.mem_cons, List.not_mem_nil, or_false] at hmem
  rcases hmem with rfl | rfl | rfl | rfl | rfl | rfl | rfl | rfl | rfl | rfl | rfl <;> revert hc <;> decide

theorem isBlank_of_number {c : Char} (hc : c = '-' ∨ c.isDigit = true) : isBlank c = false := by
  have hne := ne_of_number hc
  simp only [List.mem_cons, not_or] at hne
  simp [isBlank, hne]

theorem skip_number {c : Char} (hc : c = '-' ∨ c.isDigit = true) (limit : Nat) (outer : List Bracket)
    (s : Text) :
    skip (limit + 1) .value outer (c :: s) = (skipNumber (c :: s)).bind (skip limit .after outer) := by
  have hne := ne_of_number hc
  simp only [List.mem_cons, not_or] at hne
  rw [skip, skipBlank_cons (isBlank_of_number hc)]
  split
  all_goals rename_i heq
  all_goals simp [hne] at heq
  obtain ⟨rfl, rfl⟩ := heq
  rw [if_pos hc]
  rfl

theorem IsNumber.head {t : Text} (h : IsNumber t) :
    ∃ c s, t = c :: s ∧ (c = '-' ∨ c.isDigit = true) := by
  obtain ⟨rfl | rfl, hwhole, _, _⟩ := h
  · cases hwhole with
    | zero => exact ⟨'0', _, rfl, .inr rfl⟩
    | digits h =>
      obtain ⟨c, t, rfl⟩ := List.exists_cons_of_ne_nil h.1
      exact ⟨c, _, rfl, .inr (h.2 c List.mem_cons_self)⟩
  · exact ⟨'-', _, rfl, .inl rfl⟩

theorem IsNumber.passed {t : Text} (h : IsNumber t) : Passed t := by
  obtain ⟨c, s, rfl, hc⟩ := h.head
  refine passed_scalar (List.cons_ne_nil c s) ?_
  intro u outer rest limit hu hrest
  obtain ⟨literal, hliteral⟩ := h.readLiteral fun c hc => head_of_ends hu hrest hc
  rw [List.cons_append] at hliteral ⊢
  rw [skip_number hc, skipNumber, hliteral]
  rfl

theorem IsText.passed {t : Text} (h : IsText t) : Passed ('"' :: (t ++ ['"'])) := by
  refine passed_scalar (List.cons_ne_nil _ _) ?_
  intro u outer rest limit _ _
  have hskip : skip (limit + 1) .value outer ('"' :: (t ++ '"' :: (u ++ rest))) =
      (Json.skipText (t ++ '"' :: (u ++ rest))).bind (skip limit .after outer) := rfl
  rw [List.cons_append, List.append_assoc, List.singleton_append, hskip, h.skipText]
  rfl

/-! Arrays and objects -/

/-- An item inside a bracket leads to its value, which is the item itself or stands behind its key. -/
structure Leads (bracket : Bracket) (item value : Text) : Prop where
  front : ∀ s, ∃ c s', skipBlank (item ++ s) = c :: s' ∧ c ≠ bracket.closing
  reads : ∀ s, skipToValue bracket (item ++ s) = .ok (value ++ s)
  length : value.length ≤ item.length

theorem closing_ne_comma (bracket : Bracket) : ',' ≠ bracket.closing := by
  cases bracket <;> decide

theorem isBlank_closing (bracket : Bracket) : isBlank bracket.closing = false := by
  cases bracket <;> rfl

theorem ends_closing (bracket : Bracket) (ts : List Text) (s : Text) :
    Ends (chain false ts ++ bracket.closing :: s) := by
  apply ends_chain
  cases bracket with
  | array => exact .inl rfl
  | object => exact .inr rfl

theorem skip_closing {bracket : Bracket} {outer : List Bracket} {gap : Text} (h : Blank gap)
    (limit : Nat) (s : Text) :
    skip (limit + 1) .opened (bracket :: outer) (gap ++ bracket.closing :: s) = skip limit .after outer s ∧
      skip (limit + 1) .after (bracket :: outer) (gap ++ bracket.closing :: s) =
        skip limit .after outer s := by
  have hfront : skipBlank (gap ++ bracket.closing :: s) = bracket.closing :: s := by
    rw [skipBlank_append h, skipBlank_cons (isBlank_closing bracket)]
  rw [skip, skip, hfront]
  simp only [if_true, and_self]

theorem skip_item {bracket : Bracket} {outer : List Bracket} {item value : Text}
    (h : Leads bracket item value) {u : Text} (hu : Blank u) (limit : Nat) (s : Text) :
    skip (limit + 1) .opened (bracket :: outer) (u ++ (item ++ s)) =
        skip limit .value (bracket :: outer) (value ++ s) ∧
      skip (limit + 1) .after (bracket :: outer) (u ++ ',' :: (item ++ s)) =
        skip limit .value (bracket :: outer) (value ++ s) := by
  constructor
  · obtain ⟨c, s', hfront, hclosing⟩ := h.front s
    have hvalue : (skipToValue bracket (c :: s')).bind (skip limit .value (bracket :: outer)) =
        skip limit .value (bracket :: outer) (value ++ s) := by
      have hvalue := h.reads s
      rw [← hfront]
      cases bracket with
      | array =>
        rw [← Except.ok.inj hvalue]
        exact skip_value_skipBlank limit _ _
      | object =>
        have hkey : skipToValue .object (skipBlank (item ++ s)) = skipToValue .object (item ++ s) := by
          rw [skipToValue, skipToValue, skipKey, skipKey, skipBlank_skipBlank]
        rw [hkey, hvalue]
        rfl
    rw [← hvalue, skip, skipBlank_append hu, hfront]
    simp only [if_neg hclosing]
    rfl
  · have hcomma : skipBlank (u ++ ',' :: (item ++ s)) = ',' :: (item ++ s) := by
      rw [skipBlank_append hu, skipBlank_cons rfl]
    rw [skip, hcomma]
    simp only [if_neg (closing_ne_comma bracket), if_true, bind, Except.bind, h.reads]

/-- What is left of the items after one of them, to the closing bracket. -/
theorem skip_chain {bracket : Bracket} (outer : List Bracket) {items : List (Text × Text)}
    (h : ∀ e ∈ items, Leads bracket e.1 e.2 ∧ Passed e.2) (rest : Text) {u : Text} (hu : Blank u)
    {limit : Nat}
    (hlimit : 2 * (u ++ (chain false (items.map Prod.fst) ++ bracket.closing :: rest)).length < limit) :
    ∃ limit', 2 * rest.length < limit' ∧
      skip limit .after (bracket :: outer)
        (u ++ (chain false (items.map Prod.fst) ++ bracket.closing :: rest)) =
          skip limit' .after outer rest := by
  induction items generalizing u limit with
  | nil =>
    obtain ⟨limit, rfl⟩ := Nat.exists_eq_succ_of_ne_zero (Nat.ne_zero_of_lt hlimit)
    refine ⟨limit, ?_, (skip_closing hu limit rest).2⟩
    simp only [List.map_nil, chain, List.nil_append, List.length_append, List.length_cons] at hlimit
    omega
  | cons e items ih =>
    obtain ⟨limit, rfl⟩ := Nat.exists_eq_succ_of_ne_zero (Nat.ne_zero_of_lt hlimit)
    obtain ⟨⟨hleads, hpassed⟩, hitems⟩ := List.forall_mem_cons.1 h
    have htext : chain false ((e :: items).map Prod.fst) ++ bracket.closing :: rest =
        ',' :: (e.1 ++ (chain false (items.map Prod.fst) ++ bracket.closing :: rest)) := by
      simp [chain]
    have hle := hleads.length
    rw [htext] at hlimit ⊢
    simp only [List.length_append, List.length_cons] at hlimit
    rw [(skip_item hleads hu limit _).2]
    obtain ⟨u', limit', hu', hlimit', hskip⟩ := hpassed [] (bracket :: outer) _ limit .nil
      (ends_closing bracket (items.map Prod.fst) rest) (by
      simp only [List.length_append, List.length_cons, List.length_nil]
      omega)
    rw [← List.nil_append (chain false _ ++ _), hskip]
    exact ih hitems hu' hlimit'

theorem skip_opening (bracket : Bracket) (limit : Nat) (outer : List Bracket) (s : Text) :
    skip (limit + 1) .value outer (bracket.opening :: s) = skip limit .opened (bracket :: outer) s := by
  cases bracket <;> rfl

theorem passed_around (bracket : Bracket) {gap : Text} (hgap : Blank gap) {items : List (Text × Text)}
    (h : ∀ e ∈ items, Leads bracket e.1 e.2 ∧ Passed e.2) :
    Passed (bracket.around gap (items.map Prod.fst)) := by
  intro u outer rest limit hu _ hlimit
  rw [Bracket.around_append] at hlimit ⊢
  simp only [List.length_cons] at hlimit
  obtain ⟨limit, rfl⟩ := Nat.exists_eq_add_of_le' (show 2 ≤ limit by omega)
  rw [skip_opening]
  cases items with
  | nil =>
    refine ⟨u, limit, hu, ?_, (skip_closing hgap limit _).1⟩
    simp only [List.length_append, List.length_cons] at hlimit ⊢
    omega
  | cons e items =>
    obtain ⟨⟨hleads, hpassed⟩, hitems⟩ := List.forall_mem_cons.1 h
    have htext : chain true ((e :: items).map Prod.fst) ++ bracket.closing :: (u ++ rest) =
        e.1 ++ (chain false (items.map Prod.fst) ++ bracket.closing :: (u ++ rest)) := by
      simp [chain]
    have hle := hleads.length
    rw [htext] at hlimit ⊢
    simp only [List.length_append, List.length_cons] at hlimit
    rw [(skip_item hleads hgap limit _).1]
    obtain ⟨u', limit', hu', hlimit', hskip⟩ :=
      hpassed [] (bracket :: outer) _ limit .nil (ends_closing bracket (items.map Prod.fst) (u ++ rest)) (by
        simp only [List.length_append, List.length_cons, List.length_nil]
        omega)
    obtain ⟨limit'', hlimit'', hskip'⟩ := skip_chain outer hitems (u ++ rest) hu' hlimit'
    exact ⟨u, limit'', hu, hlimit'', hskip.trans hskip'⟩

theorem IsValue.front {t : Text} (h : IsValue t) (s : Text) :
    ∃ c s', skipBlank (t ++ s) = c :: s' ∧ c ≠ ']' := by
  induction h generalizing s with
  | null => exact ⟨'n', _, rfl, by decide⟩
  | yes => exact ⟨'t', _, rfl, by decide⟩
  | no => exact ⟨'f', _, rfl, by decide⟩
  | number h =>
    obtain ⟨c, t, rfl, hc⟩ := h.head
    refine ⟨c, t ++ s, skipBlank_cons (isBlank_of_number hc) _, ?_⟩
    rintro rfl
    exact ne_of_number hc (by decide)
  | text => exact ⟨'"', _, rfl, by decide⟩
  | array => exact ⟨'[', _, rfl, by decide⟩
  | object => exact ⟨'\x7b', _, rfl, by decide⟩
  | padded hlead _ _ ih =>
    rw [List.append_assoc, skipBlank_append hlead, List.append_assoc]
    exact ih _

theorem Property.text_append (e : Property) (s : Text) :
    e.text ++ s = e.lead ++ '"' :: (e.key ++ '"' :: (e.gap ++ ':' :: (e.value ++ s))) := by
  simp [text]

theorem Property.Keyed.leads {e : Property} (h : e.Keyed) : Leads .object e.text e.value := by
  have hfront : ∀ s, skipBlank (e.text ++ s) = '"' :: (e.key ++ '"' :: (e.gap ++ ':' :: (e.value ++ s))) := by
    intro s
    rw [e.text_append, skipBlank_append h.lead, skipBlank_cons rfl]
  refine ⟨fun s => ⟨_, _, hfront s, by decide⟩, ?_, ?_⟩
  · intro s
    have hcolon : skipBlank (e.gap ++ ':' :: (e.value ++ s)) = ':' :: (e.value ++ s) := by
      rw [skipBlank_append h.gap, skipBlank_cons rfl]
    simp only [skipToValue, skipKey, hfront, if_true, bind, Except.bind, h.key.skipText, hcolon]
  · simp only [text, List.length_append, List.length_cons]
    omega

/-- By induction on the value; the brackets that are open around it do not matter. -/
theorem IsValue.passed {t : Text} (h : IsValue t) : Passed t := by
  induction h with
  | null => exact passed_scalar (by decide) fun _ _ _ _ _ _ => rfl
  | yes => exact passed_scalar (by decide) fun _ _ _ _ _ _ => rfl
  | no => exact passed_scalar (by decide) fun _ _ _ _ _ _ => rfl
  | number h => exact h.passed
  | text h => exact h.passed
  | @array gap items hgap hitems ih =>
    have hall : ∀ e ∈ items.map fun t => (t, t), Leads .array e.1 e.2 ∧ Passed e.2 := by
      rw [List.forall_mem_map]
      exact fun t ht => ⟨⟨(hitems t ht).front, fun _ => rfl, Nat.le_refl _⟩, ih t ht⟩
    have haround := passed_around .array hgap hall
    rwa [List.map_map, show Prod.fst ∘ (fun t : Text => (t, t)) = id from rfl, List.map_id] at haround
  | @object gap entries hgap hkeys _ ih =>
    have hall : ∀ e ∈ entries.map fun e => (e.text, e.value), Leads .object e.1 e.2 ∧ Passed e.2 := by
      rw [List.forall_mem_map]
      exact fun e he => ⟨(hkeys e he).leads, ih e he⟩
    have haround := passed_around .object hgap hall
    rwa [List.map_map] at haround
  | padded hlead _ htrail ih => exact ih.padded hlead htrail

/-- A well-formed value is passed over, in front of whatever follows a value. -/
theorem IsValue.skipValue {t rest : Text} (h : IsValue t) (hrest : Ends rest) {limit : Nat}
    (hlimit : (t ++ rest).length < limit) : ∃ u, Blank u ∧ skipValue limit (t ++ rest) = .ok (u ++ rest) := by
  obtain ⟨u, limit', hu, hlimit', hskip⟩ := h.passed [] [] rest (2 * limit) .nil hrest (by
    rw [List.nil_append]
    omega)
  obtain ⟨limit', rfl⟩ := Nat.exists_eq_succ_of_ne_zero (Nat.ne_zero_of_lt hlimit')
  exact ⟨u, hu, hskip⟩

end StepScope.Json
