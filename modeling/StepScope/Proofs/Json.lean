import Mathlib.Data.List.Forall2
import Mathlib.Tactic.IntervalCases
import StepScope.Json.Sequence
import StepScope.Proofs.Text
import StepScope.Snapshot.Writer

/-!
Reading JSON back as it is written: numerals, strings, arrays and objects, each in front of whatever may
follow a value. A reader may also be at fault with what is written; then the first fault decides.
-/

namespace StepScope.Json

/-- What follows a value: nothing, a comma or a closing bracket. -/
inductive Ends : Text → Prop
  | text : Ends []
  | comma (rest : Text) : Ends (',' :: rest)
  | array (rest : Text) : Ends (']' :: rest)
  | object (rest : Text) : Ends ('\x7d' :: rest)

/-- In front of whatever follows a value, the reader makes this of the text. -/
def Reads {α : Type} (r : Reader α) (t : Text) (result : Except Fault α) : Prop :=
  ∀ rest, Ends rest → r (t ++ rest) = result.map fun a => (a, rest)

/-! Numerals -/

def Digits (t : Text) : Prop := t ≠ [] ∧ ∀ c ∈ t, c.isDigit = true

/-- The part before the point: no zero in front of other digits. -/
inductive Whole : Text → Prop
  | zero : Whole ['0']
  | digits {t : Text} (h : Digits t) (hhead : t.head? ≠ some '0') : Whole t

theorem Digits.readDigits {t rest : Text} (h : Digits t)
    (hrest : ∀ c, rest.head? = some c → c.isDigit = false) : readDigits (t ++ rest) = .ok (t, rest) := by
  have hspan := Text.span_append h.2 hrest
  rw [List.span_eq_takeWhile_dropWhile, Prod.mk.injEq] at hspan
  rw [Json.readDigits, hspan.1, hspan.2]
  obtain ⟨c, t, rfl⟩ := List.exists_cons_of_ne_nil h.1
  rfl

theorem Whole.readWhole {t rest : Text} (h : Whole t)
    (hrest : ∀ c, rest.head? = some c → c.isDigit = false) : readWhole (t ++ rest) = .ok (t, rest) := by
  cases h with
  | zero =>
    cases rest with
    | nil => rfl
    | cons c rest => simp [Json.readWhole, hrest c rfl]
  | digits h hhead =>
    rw [← h.readDigits hrest, Json.readWhole]
    intro s hs
    obtain ⟨c, t, rfl⟩ := List.exists_cons_of_ne_nil h.1
    exact hhead (congrArg List.head? hs)

/-- No numeral but that of zero begins with a zero. -/
theorem head?_decimal {n : Nat} (hn : 0 < n) : (Text.decimal n).head? ≠ some '0' := by
  rw [Text.decimal]
  induction n using Nat.base_induction 10 (by decide) with
  | single m hm =>
    rw [Nat.toDigits_of_lt_base hm]
    revert m
    decide
  | digit m k hk hm ih =>
    rw [← Nat.toDigits_append_toDigits (by decide) hm hk,
      List.head?_append_of_ne_nil _ Nat.toDigits_ne_nil]
    exact ih hm

theorem decimal_eq_cons (n : Nat) : ∃ d < 10, ∃ ds, Text.decimal n = Nat.digitChar d :: ds := by
  obtain ⟨c, ds, hdecimal⟩ := List.exists_cons_of_ne_nil (l := Text.decimal n) Nat.toDigits_ne_nil
  have hc : c ∈ Text.decimal n := hdecimal ▸ List.mem_cons_self
  obtain ⟨d, hd, rfl⟩ := Text.mem_toDigits (by decide) hc
  exact ⟨d, hd, ds, hdecimal⟩

theorem value_decimal (n : Nat) : value (Text.decimal n) = n :=
  Nat.ofDigitChars_toDigits (by decide) (Nat.le_refl 10)

theorem Ends.not_isDigit {rest : Text} (h : Ends rest) {c : Char} (hc : rest.head? = some c) :
    c.isDigit = false := by
  cases h <;> cases hc <;> rfl

theorem whole_decimal (n : Nat) : Whole (Text.decimal n) := by
  rcases Nat.eq_zero_or_pos n with rfl | hn
  · exact .zero
  · exact .digits ⟨Nat.toDigits_ne_nil, fun _ => Text.isDigit_of_mem_decimal⟩ (head?_decimal hn)

theorem readLiteral_decimal (n : Nat) {rest : Text} (h : Ends rest) :
    readLiteral (Text.decimal n ++ rest) =
      .ok ({ negative := false, whole := Text.decimal n, fraction := [], exponent := none }, rest) := by
  have hunsigned : readUnsigned false (Text.decimal n ++ rest) =
      .ok ({ negative := false, whole := Text.decimal n, fraction := [], exponent := none }, rest) := by
    rw [readUnsigned, (whole_decimal n).readWhole fun _ => h.not_isDigit]
    cases h <;> rfl
  obtain ⟨d, hd, ds, hdecimal⟩ := decimal_eq_cons n
  have hminus : ∀ d < 10, Nat.digitChar d ≠ '-' := by decide
  rw [← hunsigned, readLiteral]
  intro s hs
  rw [hdecimal, List.cons_append, List.cons.injEq] at hs
  exact hminus d hd hs.1

theorem readNumber_decimal {n : Nat} (hn : n ≤ greatest) {rest : Text} (h : Ends rest) :
    readNumber (Text.decimal n ++ rest) = .ok (.natural n, rest) := by
  have hnatural : Literal.natural?
      { negative := false, whole := Text.decimal n, fraction := [], exponent := none } = some n := by
    simp [Literal.natural?, value_decimal, hn]
  rw [readNumber, readLiteral_decimal n h]
  simp only [bind, Except.bind, hnatural]

/-- A digit at the front is that of a number. -/
theorem readToken_digitChar {d : Nat} (hd : d < 10) (s : Text) :
    readToken (Nat.digitChar d :: s) = readNumber (Nat.digitChar d :: s) := by
  interval_cases d <;> rfl

/-- A whole number of 64 bits is read from its numeral. -/
theorem reads_decimal {n : Nat} (hn : n ≤ greatest) :
    Reads readToken (Text.decimal n) (.ok (.natural n)) := by
  intro rest h
  have hnumber := readNumber_decimal hn h
  obtain ⟨d, hd, ds, hdecimal⟩ := decimal_eq_cons n
  rw [hdecimal, List.cons_append] at hnumber ⊢
  rw [readToken_digitChar hd, hnumber]
  rfl

/-! Strings -/

/-- A character that stands for itself in a string. -/
def isPlain (c : Char) : Bool := c ≠ '"' && c ≠ '\\' && 0x20 ≤ c.toNat

theorem readText_plain {t : Text} (h : ∀ c ∈ t, isPlain c = true) (rest : Text) :
    readText (t ++ '"' :: rest) = .ok (t, rest) := by
  induction t with
  | nil =>
    rw [List.nil_append, readText]
    rfl
  | cons c t ih =>
    obtain ⟨hc, ht⟩ := List.forall_mem_cons.1 h
    simp only [isPlain, Bool.and_eq_true, decide_eq_true_eq] at hc
    rw [List.cons_append, readText, if_neg hc.1.1, if_neg hc.1.2, if_neg (Nat.not_lt.2 hc.2), ih ht]
    rfl

theorem reads_stringJson {t : Text} (h : ∀ c ∈ t, isPlain c = true) :
    Reads readToken (Snapshot.stringJson t) (.ok (.text t)) := by
  intro rest _
  have htext := readText_plain h rest
  have hstring : Snapshot.stringJson t ++ rest = '"' :: (t ++ '"' :: rest) := by
    simp [Snapshot.stringJson]
  have htoken : readToken ('"' :: (t ++ '"' :: rest)) =
      (readText (t ++ '"' :: rest)).map fun read => (.text read.1, read.2) := rfl
  rw [hstring, htoken, htext]
  rfl

/-! Arrays and objects -/

/-- The rest of a list of items, of which some have come already unless this is the first. -/
def chain (first : Bool) : List Text → Text
  | [] => []
  | t :: ts => (if first then t else ',' :: t) ++ chain false ts

theorem flatten_intersperse_comma (ts : List Text) :
    (ts.intersperse [',']).flatten = chain true ts := by
  have htail : ∀ ts : List Text, ts.flatMap ([','] ++ ·) = chain false ts := by
    intro ts
    induction ts with
    | nil => rfl
    | cons t ts ih =>
      rw [List.flatMap_cons, ih]
      rfl
  cases ts with
  | nil => rfl
  | cons t ts =>
    rw [Text.flatten_intersperse_cons, htail]
    rfl

/-- A text that an item of an array may begin with. -/
def Opens (t : Text) : Prop := ∃ c s, t = c :: s ∧ isBlank c = false ∧ c ≠ ']'

theorem Opens.ne_nil {t : Text} (h : Opens t) : t ≠ [] := by
  obtain ⟨c, s, rfl, _⟩ := h
  exact List.cons_ne_nil c s

theorem skipBlank_cons {c : Char} (hc : isBlank c = false) (s : Text) :
    skipBlank (c :: s) = c :: s := by
  rw [skipBlank, List.dropWhile_cons, hc]
  rfl

theorem ends_chain {closing : Char} (hclosing : closing = ']' ∨ closing = '\x7d') (ts : List Text)
    (rest : Text) : Ends (chain false ts ++ closing :: rest) := by
  cases ts with
  | nil =>
    rcases hclosing with rfl | rfl
    · exact .array rest
    · exact .object rest
  | cons t ts => exact .comma _

theorem nextItem_front {t : Text} (h : ∀ s, ∃ c s', skipBlank (t ++ s) = c :: s' ∧ c ≠ ']') (first : Bool)
    (ts : List Text) (s : Text) :
    nextItem first (chain first (t :: ts) ++ s) = .ok (.value (skipBlank (t ++ (chain false ts ++ s)))) := by
  obtain ⟨c, s', hfront, hc⟩ := h (chain false ts ++ s)
  cases first with
  | true =>
    have htext : chain true (t :: ts) ++ s = t ++ (chain false ts ++ s) := by simp [chain]
    rw [htext, nextItem, hfront]
    simp only [if_neg hc, if_true]
  | false =>
    have htext : chain false (t :: ts) ++ s = ',' :: (t ++ (chain false ts ++ s)) := by simp [chain]
    have hcomma : isBlank ',' = false := rfl
    rw [htext, nextItem, skipBlank_cons hcomma]
    simp [hfront, hc]

theorem nextItem_chain {t : Text} (h : Opens t) (first : Bool) (ts : List Text) (s : Text) :
    nextItem first (chain first (t :: ts) ++ s) = .ok (.value (t ++ (chain false ts ++ s))) := by
  obtain ⟨c, t, rfl, hblank, hclosing⟩ := h
  have hfront : ∀ s, skipBlank (c :: t ++ s) = c :: (t ++ s) := fun s => skipBlank_cons hblank (t ++ s)
  rw [nextItem_front (fun s => ⟨c, t ++ s, hfront s, hclosing⟩), hfront, List.cons_append]

/-- Of the items of an array, the first that does not fit decides. -/
theorem readItems_chain {α : Type} {item : Reader α} {fits : Text → Bool} {fault : Fault}
    {ts : List Text} {as : List α}
    (h : List.Forall₂ (fun t a => Reads item t (if fits t then .ok a else .error fault)) ts as)
    (hopens : ∀ t ∈ ts, Opens t) {limit : Nat} (hlimit : ts.length < limit) (first : Bool)
    (rest : Text) :
    readItems item limit first (chain first ts ++ ']' :: rest) =
      if ts.all fits then .ok (as, rest) else .error fault := by
  induction h generalizing limit first with
  | nil =>
    obtain ⟨limit, rfl⟩ := Nat.exists_eq_succ_of_ne_zero (Nat.ne_zero_of_lt hlimit)
    rfl
  | @cons t a ts as hread _ ih =>
    obtain ⟨limit, rfl⟩ := Nat.exists_eq_succ_of_ne_zero (Nat.ne_zero_of_lt hlimit)
    obtain ⟨ht, hts⟩ := List.forall_mem_cons.1 hopens
    have hrest := ih hts (Nat.lt_of_succ_lt_succ hlimit) false
    rw [readItems, nextItem_chain ht, List.all_cons]
    simp only [bind, Except.bind, hread _ (ends_chain (.inl rfl) ts rest)]
    cases fits t with
    | false => rfl
    | true =>
      simp only [if_true, Except.map, hrest, Bool.true_and]
      cases ts.all fits <;> rfl

theorem nextMember_chain {name : Text} (h : ∀ c ∈ name, isPlain c = true) (first : Bool) (v : Text)
    (ts : List Text) (s : Text) :
    nextMember first (chain first ((Snapshot.stringJson name ++ ':' :: v) :: ts) ++ s) =
      .ok (.key name (':' :: (v ++ (chain false ts ++ s)))) := by
  have hkey : readKey ('"' :: (name ++ '"' :: ':' :: (v ++ (chain false ts ++ s)))) =
      .ok (.key name (':' :: (v ++ (chain false ts ++ s)))) := by
    simp [readKey, readText_plain h, Except.map]
  have hquote : isBlank '"' = false := rfl
  have hcomma : isBlank ',' = false := rfl
  cases first with
  | true => simp [chain, nextMember, Snapshot.stringJson, skipBlank_cons hquote, hkey]
  | false =>
    simp [chain, nextMember, Snapshot.stringJson, skipBlank_cons hcomma, skipBlank_cons hquote, hkey]

theorem readMembers_chain {κ α : Type} {key : Text → Except Fault κ} {item : Reader α}
    {name : κ → Text} {written : α → Text} (hname : ∀ k, ∀ c ∈ name k, isPlain c = true)
    (hkey : ∀ k, key (name k) = .ok k) (hitem : ∀ a, Reads item (written a) (.ok a))
    {entries : List (κ × α)} {limit : Nat} (hlimit : entries.length < limit) (first : Bool)
    (rest : Text) :
    readMembers key item limit first
        (chain first (entries.map fun e => Snapshot.stringJson (name e.1) ++ ':' :: written e.2) ++
          '\x7d' :: rest) =
      .ok (entries, rest) := by
  induction entries generalizing limit first with
  | nil =>
    obtain ⟨limit, rfl⟩ := Nat.exists_eq_succ_of_ne_zero (Nat.ne_zero_of_lt hlimit)
    rfl
  | cons e entries ih =>
    obtain ⟨limit, rfl⟩ := Nat.exists_eq_succ_of_ne_zero (Nat.ne_zero_of_lt hlimit)
    have hrest := ih (Nat.lt_of_succ_lt_succ hlimit) false
    have hcolon : ∀ s, readColon (':' :: s) = .ok s := fun _ => rfl
    have hread := hitem e.2 _ (ends_chain (.inr rfl)
      (entries.map fun e => Snapshot.stringJson (name e.1) ++ ':' :: written e.2) rest)
    rw [List.map_cons, readMembers, nextMember_chain (hname e.1)]
    simp only [bind, Except.bind, hkey, hcolon, hread, Except.map, hrest]

theorem enclosed_eq (opening closing : Char) (ts : List Text) :
    Snapshot.enclosed opening closing ts = opening :: (chain true ts ++ [closing]) := by
  rw [Snapshot.enclosed, flatten_intersperse_comma]

theorem length_lt_enclosed {ts : List Text} (h : ∀ t ∈ ts, t ≠ []) (opening closing : Char) :
    ts.length < (Snapshot.enclosed opening closing ts).length := by
  have hchain : ∀ first, ts.length ≤ (chain first ts).length := by
    induction ts with
    | nil => exact fun _ => Nat.le_refl 0
    | cons t ts ih =>
      obtain ⟨ht, hts⟩ := List.forall_mem_cons.1 h
      have hpos := List.length_pos_of_ne_nil ht
      have hrest := ih hts false
      intro first
      cases first <;> simp [chain] <;> omega
  have hle := hchain true
  rw [enclosed_eq, List.length_cons, List.length_append]
  omega

theorem length_lt_enclosed_of_mem {t : Text} {ts : List Text} (h : t ∈ ts) (opening closing : Char) :
    t.length < (Snapshot.enclosed opening closing ts).length := by
  have hchain : ∀ first, t.length ≤ (chain first ts).length := by
    induction ts with
    | nil => cases h
    | cons u ts ih =>
      intro first
      rcases List.mem_cons.1 h with rfl | h
      · cases first with
        | true => simp [chain]
        | false =>
          simp [chain]
          omega
      · have hrest := ih h false
        cases first <;> simp [chain] <;> omega
  have hle := hchain true
  rw [enclosed_eq, List.length_cons, List.length_append]
  omega

end StepScope.Json
