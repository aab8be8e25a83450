import StepScope.Proofs.ByteOrder
import StepScope.Proofs.HexInput
import StepScope.Proofs.Keyed
import StepScope.Settings.AddressBook

/-!
The address book of names, for every way of reading addresses that takes marks and forty digits and nothing else.
Names are added in the order of the bytes of their keys, so of the keys that spell one address the greatest gives
the label, and the least key that spells none is the one that is reported. There is no book in part: one such
key is enough for there to be none.
-/

namespace StepScope

open Text (BytesBefore utf8)

namespace Address

variable {marks : List Text} {t : Text} {a : Address}

/-- A text of forty digits, each of either case, behind one of the marks. -/
def IsText (marks : List Text) (t : Text) : Prop :=
  ∃ mark ∈ marks, ∃ digits, t = mark ++ digits ∧ (utf8 digits).length = 40 ∧
    ∀ b ∈ utf8 digits, Hex.IsDigit b

/-- The text writes the address: the digits of its bytes, each of either case, behind one of the marks. -/
def Spells (marks : List Text) (t : Text) (a : Address) : Prop :=
  ∃ mark ∈ marks, ∃ digits, t = mark ++ digits ∧ Hex.Pairs (utf8 digits) a.toBytes

/-- What is relied on of a way of reading: it takes the texts that write an address, for that address, and
nothing else. -/
def Reads (marks : List Text) (read : Reader) : Prop := ∀ t a, read t = .ok a ↔ Spells marks t a

theorem exists_pairs {digits : Bytes} (hlength : digits.length = 40) (hdigits : ∀ b ∈ digits, Hex.IsDigit b) :
    ∃ a : Address, Hex.Pairs digits a.toBytes := by
  obtain ⟨code, hpairs⟩ := Hex.exists_pairs (show digits.length = 2 * 20 from hlength) hdigits
  have hcode : code.length = 20 := by
    have htwice := hpairs.length_eq
    omega
  exact ⟨ofBytes code, (toBytes_ofBytes hcode).symm ▸ hpairs⟩

theorem length_of_pairs {digits : Bytes} (h : Hex.Pairs digits a.toBytes) : digits.length = 40 := by
  rw [h.length_eq, a.length_toBytes]

theorem read_of_pairs (h : Hex.Pairs (utf8 (Hex.dropMark t)) a.toBytes) : read t = .ok a := by
  simp only [read, length_of_pairs h, h.read]
  exact congrArg Except.ok a.ofBytes_toBytes

theorem pairs_of_read (h : read t = .ok a) : Hex.Pairs (utf8 (Hex.dropMark t)) a.toBytes := by
  have hread := h
  simp only [read] at hread
  split at hread
  · cases hread
  split at hread
  · cases hread
  rename_i heven hlength
  by_cases hdigits : ∀ b ∈ utf8 (Hex.dropMark t), Hex.IsDigit b
  · obtain ⟨a', hpairs⟩ := exists_pairs (Decidable.not_not.1 hlength) hdigits
    rw [read_of_pairs hpairs, Except.ok.injEq] at h
    exact h ▸ hpairs
  · obtain ⟨b, position, hflaw⟩ := Hex.exists_firstFlaw hdigits
    rw [hflaw.read (by omega)] at hread
    cases hread

/-- The texts of addresses are those that write one. -/
theorem isText_iff : IsText marks t ↔ ∃ a, Spells marks t a := by
  constructor
  · rintro ⟨mark, hmark, digits, ht, hlength, hdigits⟩
    obtain ⟨a, hpairs⟩ := exists_pairs hlength hdigits
    exact ⟨a, mark, hmark, digits, ht, hpairs⟩
  · rintro ⟨a, mark, hmark, digits, ht, hpairs⟩
    exact ⟨mark, hmark, digits, ht, length_of_pairs hpairs, hpairs.isDigit⟩

theorem not_mem_of_pairs {digits : Text} (h : Hex.Pairs (utf8 digits) a.toBytes) {c : Char} (hc : c.toNat < 128)
    (hdigit : ¬ Hex.IsDigit (UInt8.ofNat c.toNat)) : c ∉ digits :=
  fun hmem => hdigit (h.isDigit _ (Text.mem_utf8_of_ascii hmem hc))

/-- Addresses are read behind a mark of either case, or none. -/
theorem reads_read : Reads [[], ['0', 'x'], ['0', 'X']] read := by
  intro t a
  constructor
  · intro h
    obtain ⟨mark, hmark, ht⟩ := (HexInput.unmarked_iff.2 (rfl : Hex.dropMark t = _)).exists_mark
    exact ⟨mark, hmark, _, ht, pairs_of_read h⟩
  · rintro ⟨mark, hmark, digits, rfl, hpairs⟩
    have hletter : ∀ c ∈ digits, c ≠ 'x' ∧ c ≠ 'X' := by
      intro c hc
      constructor
      all_goals
        rintro rfl
        exact not_mem_of_pairs hpairs (by decide) (by decide) hc
    apply read_of_pairs
    rwa [HexInput.unmarked_iff.1 (HexInput.unmarked_append hmark hletter)]

end Address

namespace Settings

open Address (Reads)

/-- The key spells the address, with white space around. -/
def Denotes (marks : List Text) (key : Text) (a : Address) : Prop := Address.Spells marks (Text.trim key) a

variable {marks : List Text} {read : Address.Reader} {key label : Text} {a b : Address}

theorem Denotes.unique (hread : Reads marks read) (ha : Denotes marks key a) (hb : Denotes marks key b) :
    a = b :=
  Except.ok.inj (((hread _ _).2 ha).symm.trans ((hread _ _).2 hb))

theorem exists_denotes_iff : (∃ a, Denotes marks key a) ↔ Address.IsText marks (Text.trim key) :=
  Address.isText_iff.symm

/-! One name after the other -/

variable {names : List (Text × Text)} {e : Text × Text}

/-- Of the names the last that denotes the address has the label. -/
def LastNamed (marks : List Text) (names : List (Text × Text)) (a : Address) (label : Text) : Prop :=
  ∃ front key back, names = front ++ (key, label) :: back ∧ Denotes marks key a ∧
    ∀ e ∈ back, ¬ Denotes marks e.1 a

theorem lastNamed_cons :
    LastNamed marks (e :: names) a label ↔
      LastNamed marks names a label ∨ e.2 = label ∧ Denotes marks e.1 a ∧ ∀ f ∈ names, ¬ Denotes marks f.1 a := by
  constructor
  · rintro ⟨front, key, back, heq, hkey, hback⟩
    cases front with
    | nil =>
      obtain ⟨rfl, rfl⟩ := List.cons.inj heq
      exact .inr ⟨rfl, hkey, hback⟩
    | cons f front => exact .inl ⟨front, key, back, (List.cons.inj heq).2, hkey, hback⟩
  · rintro (⟨front, key, back, rfl, hkey, hback⟩ | ⟨rfl, hkey, hback⟩)
    · exact ⟨e :: front, key, back, rfl, hkey, hback⟩
    · exact ⟨[], e.1, names, rfl, hkey, hback⟩

theorem exists_lastNamed (h : ∃ e ∈ names, Denotes marks e.1 a) : ∃ label, LastNamed marks names a label := by
  induction names with
  | nil =>
    obtain ⟨e, he, _⟩ := h
    cases he
  | cons e names ih =>
    by_cases hrest : ∃ f ∈ names, Denotes marks f.1 a
    · obtain ⟨label, hlast⟩ := ih hrest
      exact ⟨label, lastNamed_cons.2 (.inl hlast)⟩
    · obtain ⟨f, hf, hfa⟩ := h
      have hnone : ∀ f ∈ names, ¬ Denotes marks f.1 a := fun f hf hfa => hrest ⟨f, hf, hfa⟩
      rcases List.mem_cons.1 hf with rfl | hf
      · exact ⟨f.2, lastNamed_cons.2 (.inr ⟨rfl, hfa, hnone⟩)⟩
      · exact absurd hfa (hnone f hf)

theorem LastNamed.exists_mem (h : LastNamed marks names a label) : ∃ e ∈ names, Denotes marks e.1 a := by
  obtain ⟨front, key, back, rfl, hkey, _⟩ := h
  exact ⟨_, List.mem_append_right _ List.mem_cons_self, hkey⟩

theorem addNames_cons (hread : Reads marks read) (h : Denotes marks e.1 a) (book : AddressBook) :
    addNames read book (e :: names) = addNames read (book.insert a e.2) names := by
  simp only [addNames, (hread _ _).2 h]

theorem mem_insert_iff {book : AddressBook} :
    (b, label) ∈ (book.insert a e.2).entries ↔ b = a ∧ e.2 = label ∨ (b, label) ∈ book.entries ∧ b ≠ a := by
  refine (Keyed.mem_place_iff book.ascending).trans (or_congr_left ?_)
  rw [Prod.mk.injEq]
  exact and_congr_right fun _ => eq_comm

/-- If all keys are spelled as addresses, a name replaces what was there for its address. -/
theorem addNames_of_denotes (hread : Reads marks read) (h : ∀ e ∈ names, ∃ a, Denotes marks e.1 a)
    (book : AddressBook) :
    ∃ book', addNames read book names = .ok book' ∧ ∀ a label, (a, label) ∈ book'.entries ↔
      LastNamed marks names a label ∨ (a, label) ∈ book.entries ∧ ∀ e ∈ names, ¬ Denotes marks e.1 a := by
  induction names generalizing book with
  | nil =>
    refine ⟨book, rfl, fun a label => ?_⟩
    have hnone : ¬ LastNamed marks [] a label := fun hlast => by
      obtain ⟨e, he, _⟩ := hlast.exists_mem
      cases he
    rw [or_iff_right hnone]
    exact (and_iff_left (List.forall_mem_nil _)).symm
  | cons e names ih =>
    obtain ⟨⟨a₀, ha₀⟩, hnames⟩ := List.forall_mem_cons.1 h
    obtain ⟨book', hbook', hmem⟩ := ih hnames (book.insert a₀ e.2)
    refine ⟨book', (addNames_cons hread ha₀ book).trans hbook', fun a label => ?_⟩
    have hsame : Denotes marks e.1 a ↔ a = a₀ := ⟨fun ha => ha.unique hread ha₀, fun ha => ha ▸ ha₀⟩
    rw [hmem, lastNamed_cons, mem_insert_iff, List.forall_mem_cons, hsame, or_assoc]
    refine or_congr_right ?_
    rw [or_and_right, and_assoc, and_assoc, and_left_comm]

theorem addNames_of_flaw (hread : Reads marks read) {front back : List (Text × Text)} {flaw : Address.Flaw}
    (hfront : ∀ e ∈ front, ∃ a, Denotes marks e.1 a) (hflaw : read (Text.trim key) = .error flaw)
    (book : AddressBook) :
    addNames read book (front ++ (key, label) :: back) = .error (.invalidName key flaw) := by
  induction front generalizing book with
  | nil => simp only [List.nil_append, addNames, hflaw]
  | cons e front ih =>
    obtain ⟨⟨a, ha⟩, hfront⟩ := List.forall_mem_cons.1 hfront
    rw [List.cons_append, addNames_cons hread ha, ih hfront]

/-- If some key is not spelled as an address, there is a first. -/
theorem exists_flaw (hread : Reads marks read) (h : ¬ ∀ e ∈ names, ∃ a, Denotes marks e.1 a) :
    ∃ front key label back flaw, names = front ++ (key, label) :: back ∧
      (∀ e ∈ front, ∃ a, Denotes marks e.1 a) ∧ read (Text.trim key) = .error flaw := by
  induction names with
  | nil => exact absurd (List.forall_mem_nil _) h
  | cons e names ih =>
    cases hkey : read (Text.trim e.1) with
    | error flaw => exact ⟨[], e.1, e.2, names, flaw, rfl, List.forall_mem_nil _, hkey⟩
    | ok a =>
      have ha : ∃ a, Denotes marks e.1 a := ⟨a, (hread _ _).1 hkey⟩
      obtain ⟨front, key, label, back, flaw, rfl, hfront, hflaw⟩ :=
        ih fun hnames => h (List.forall_mem_cons.2 ⟨ha, hnames⟩)
      exact ⟨e :: front, key, label, back, flaw, rfl, List.forall_mem_cons.2 ⟨ha, hfront⟩, hflaw⟩

/-! Keys in the order of their bytes -/

/-- Of the keys with a property this is the greatest, and it has the label. -/
structure Greatest (names : Keyed Text Text) (P : Text → Prop) (key label : Text) : Prop where
  mem : (key, label) ∈ names.entries
  holds : P key
  greatest : ∀ e ∈ names.entries, P e.1 → e.1 = key ∨ BytesBefore (utf8 e.1) (utf8 key)

/-- Of the keys with a property this is the least. -/
structure Least (names : Keyed Text Text) (P : Text → Prop) (key : Text) : Prop where
  mem : ∃ label, (key, label) ∈ names.entries
  holds : P key
  least : ∀ e ∈ names.entries, P e.1 → e.1 = key ∨ BytesBefore (utf8 key) (utf8 e.1)

/-- The keys in front of an entry are less than its key, and those behind it are greater. -/
theorem bytesBefore_of_entries {names : Keyed Text Text} {front back : List (Text × Text)}
    (h : names.entries = front ++ (key, label) :: back) :
    (∀ e ∈ front, BytesBefore (utf8 e.1) (utf8 key)) ∧ ∀ e ∈ back, BytesBefore (utf8 key) (utf8 e.1) := by
  have hascending := names.ascending
  rw [h, List.pairwise_append, List.pairwise_cons] at hascending
  obtain ⟨_, ⟨hback, _⟩, hfront⟩ := hascending
  exact ⟨fun e he => Text.before_iff.1 (hfront e he _ List.mem_cons_self),
    fun e he => Text.before_iff.1 (hback e he)⟩

theorem greatest_iff {names : Keyed Text Text} {P : Text → Prop} :
    Greatest names P key label ↔
      ∃ front back, names.entries = front ++ (key, label) :: back ∧ P key ∧ ∀ e ∈ back, ¬ P e.1 := by
  constructor
  · rintro ⟨hmem, hkey, hgreatest⟩
    obtain ⟨front, back, heq⟩ := List.append_of_mem hmem
    refine ⟨front, back, heq, hkey, fun e he hP => ?_⟩
    have hbehind := (bytesBefore_of_entries heq).2 e he
    rcases hgreatest e (heq ▸ List.mem_append_right _ (List.mem_cons_of_mem _ he)) hP with hsame | hbefore
    · rw [hsame] at hbehind
      exact Text.not_bytesBefore_self _ hbehind
    · exact hbehind.asymm hbefore
  · rintro ⟨front, back, heq, hkey, hback⟩
    refine ⟨heq ▸ List.mem_append_right _ List.mem_cons_self, hkey, fun e he hP => ?_⟩
    rw [heq, List.mem_append, List.mem_cons] at he
    rcases he with he | rfl | he
    · exact .inr ((bytesBefore_of_entries heq).1 e he)
    · exact .inl rfl
    · exact absurd hP (hback e he)

theorem least_iff {names : Keyed Text Text} {P : Text → Prop} :
    Least names P key ↔
      ∃ front label back, names.entries = front ++ (key, label) :: back ∧ P key ∧ ∀ e ∈ front, ¬ P e.1 := by
  constructor
  · rintro ⟨⟨label, hmem⟩, hkey, hleast⟩
    obtain ⟨front, back, heq⟩ := List.append_of_mem hmem
    refine ⟨front, label, back, heq, hkey, fun e he hP => ?_⟩
    have hinFront := (bytesBefore_of_entries heq).1 e he
    rcases hleast e (heq ▸ List.mem_append_left _ he) hP with hsame | hbefore
    · rw [hsame] at hinFront
      exact Text.not_bytesBefore_self _ hinFront
    · exact hinFront.asymm hbefore
  · rintro ⟨front, label, back, heq, hkey, hfront⟩
    refine ⟨⟨label, heq ▸ List.mem_append_right _ List.mem_cons_self⟩, hkey, fun e he hP => ?_⟩
    rw [heq, List.mem_append, List.mem_cons] at he
    rcases he with he | rfl | he
    · exact absurd hP (hfront e he)
    · exact .inl rfl
    · exact .inr ((bytesBefore_of_entries heq).2 e he)

theorem lastNamed_iff {names : Keyed Text Text} :
    LastNamed marks names.entries a label ↔ ∃ key, Greatest names (Denotes marks · a) key label := by
  constructor
  · rintro ⟨front, key, back, hlast⟩
    exact ⟨key, greatest_iff.2 ⟨front, back, hlast⟩⟩
  · rintro ⟨key, hgreatest⟩
    obtain ⟨front, back, hlast⟩ := greatest_iff.1 hgreatest
    exact ⟨front, key, back, hlast⟩

/-- The book has the addresses that keys of the names spell, each with the label of the greatest key that does,
and no others. -/
structure Resolves (marks : List Text) (names : Keyed Text Text) (book : AddressBook) : Prop where
  named : ∀ a, (∃ label, book.get? a = some label) ↔ ∃ e ∈ names.entries, Denotes marks e.1 a
  greatest : ∀ a label, book.get? a = some label ↔ ∃ key, Greatest names (Denotes marks · a) key label
  entries : ∀ a label, (a, label) ∈ book.entries ↔ ∃ key, Greatest names (Denotes marks · a) key label

theorem resolves_of_lastNamed {names : Keyed Text Text} {book : AddressBook}
    (h : ∀ a label, (a, label) ∈ book.entries ↔ LastNamed marks names.entries a label) :
    Resolves marks names book where
  named a := by
    constructor
    · rintro ⟨label, hlabel⟩
      exact ((h a label).1 (Keyed.get?_eq_some_iff.1 hlabel)).exists_mem
    · intro hkey
      obtain ⟨label, hlast⟩ := exists_lastNamed hkey
      exact ⟨label, Keyed.get?_eq_some_iff.2 ((h a label).2 hlast)⟩
  greatest a label := by rw [Keyed.get?_eq_some_iff, h, lastNamed_iff]
  entries a label := (h a label).trans lastNamed_iff

theorem Least.unique {names : Keyed Text Text} {P : Text → Prop} {key' : Text} (h : Least names P key)
    (h' : Least names P key') : key = key' := by
  obtain ⟨label, hmem⟩ := h.mem
  obtain ⟨label', hmem'⟩ := h'.mem
  rcases h'.least _ hmem h.holds with heq | hbefore
  · exact heq
  rcases h.least _ hmem' h'.holds with heq | hbefore'
  · exact heq.symm
  · exact absurd hbefore' hbefore.asymm

variable {s : Settings}

theorem addressBook_of_denotes (hread : Reads marks read) (h : ∀ e ∈ s.names.entries, ∃ a, Denotes marks e.1 a) :
    ∃ book, s.addressBook read = .ok book ∧ Resolves marks s.names book := by
  obtain ⟨book, hbook, hmem⟩ := addNames_of_denotes hread h Keyed.empty
  refine ⟨book, hbook, resolves_of_lastNamed fun a label => (hmem a label).trans (or_iff_left ?_)⟩
  rintro ⟨hempty, _⟩
  cases hempty

/-- If some key is spelled as no address, the least of them is reported. -/
theorem addressBook_of_flaw (hread : Reads marks read) (h : ¬ ∀ e ∈ s.names.entries, ∃ a, Denotes marks e.1 a) :
    ∃ key flaw, Least s.names (fun key => ¬ ∃ a, Denotes marks key a) key ∧
      read (Text.trim key) = .error flaw ∧ s.addressBook read = .error (.invalidName key flaw) := by
  obtain ⟨front, key, label, back, flaw, heq, hfront, hflaw⟩ := exists_flaw hread h
  have hkey : ¬ ∃ a, Denotes marks key a := by
    rintro ⟨a, ha⟩
    rw [(hread _ _).2 ha] at hflaw
    cases hflaw
  refine ⟨key, flaw, least_iff.2 ⟨front, label, back, heq, hkey, fun e he => not_not_intro (hfront e he)⟩,
    hflaw, ?_⟩
  rw [addressBook, heq]
  exact addNames_of_flaw hread hfront hflaw Keyed.empty

/-- What comes of the names of settings is fixed by their keys: there is a book if every key is the text of an
address, and then it resolves all of them; if some key is anything else there is none, and the least of such
keys is named. What is reported depends on nothing but this key. -/
structure BookByKeys (marks : List Text) (read : Address.Reader) (s : Settings) : Prop where
  made : (∃ book, s.addressBook read = .ok book) ↔
    ∀ e ∈ s.names.entries, Address.IsText marks (Text.trim e.1)
  resolves : ∀ book, s.addressBook read = .ok book → Resolves marks s.names book
  reported : ∀ report, s.addressBook read = .error report ↔ ∃ key flaw,
    Least s.names (fun key => ¬ Address.IsText marks (Text.trim key)) key ∧
    read (Text.trim key) = .error flaw ∧ report = .invalidName key flaw ∧
    report.message = "Invalid address in [names]: ".toList ++ key

theorem bookByKeys (hread : Reads marks read) (s : Settings) : BookByKeys marks read s := by
  by_cases h : ∀ e ∈ s.names.entries, ∃ a, Denotes marks e.1 a
  · obtain ⟨book, hbook, hresolves⟩ := addressBook_of_denotes hread h
    refine ⟨iff_of_true ⟨book, hbook⟩ fun e he => exists_denotes_iff.1 (h e he), fun book' hbook' => ?_,
      fun report => ?_⟩
    · rw [hbook, Except.ok.injEq] at hbook'
      exact hbook' ▸ hresolves
    · rw [hbook]
      refine iff_of_false nofun ?_
      rintro ⟨key, flaw, hleast, -⟩
      obtain ⟨label, hmem⟩ := hleast.mem
      exact hleast.holds (exists_denotes_iff.1 (h _ hmem))
  · obtain ⟨key, flaw, hleast, hflaw, hreport⟩ := addressBook_of_flaw hread h
    simp only [exists_denotes_iff] at h hleast
    refine ⟨iff_of_false (by rw [hreport]; nofun) h, by rw [hreport]; nofun, fun report => ?_⟩
    rw [hreport]
    constructor
    · rintro ⟨⟩
      exact ⟨key, flaw, hleast, hflaw, rfl, rfl⟩
    · rintro ⟨key', flaw', hleast', hflaw', rfl, -⟩
      obtain rfl := hleast.unique hleast'
      rw [hflaw, Except.error.injEq] at hflaw'
      rw [hflaw']

/-- The address books of this program, whose addresses may have a capital letter in their mark. -/
theorem bookByKeys_read (s : Settings) : BookByKeys [[], ['0', 'x'], ['0', 'X']] Address.read s :=
  bookByKeys Address.reads_read s

/-- Let addresses be read from forty digits of either case, behind `0x` or no mark, and from nothing else. There
is an address book if every key, without the white space around it, is such a text, and then it has the
addresses that keys spell, each with the label of the greatest key that does, and no others. If some key is
anything else there is none, and the least of such keys is named: what is reported depends on nothing but
this key. -/
theorem addressBook_exact {read : Address.Reader} (hread : Reads [[], ['0', 'x']] read) (s : Settings) :
    ((∃ book, s.addressBook read = .ok book) ↔
      ∀ e ∈ s.names.entries, Address.IsText [[], ['0', 'x']] (Text.trim e.1)) ∧
    (∀ book, s.addressBook read = .ok book → Resolves [[], ['0', 'x']] s.names book) ∧
    ∀ report, s.addressBook read = .error report ↔ ∃ key flaw,
      Least s.names (fun key => ¬ Address.IsText [[], ['0', 'x']] (Text.trim key)) key ∧
      read (Text.trim key) = .error flaw ∧ report = .invalidName key flaw ∧
      report.message = "Invalid address in [names]: ".toList ++ key := by
  have hbook := bookByKeys hread s
  exact ⟨hbook.made, hbook.resolves, hbook.reported⟩

/-- Addresses behind `0x` or no mark. -/
def readLower : Address.Reader
  | '0' :: 'X' :: _ => .error .length
  | t => Address.read t

theorem reads_readLower : Reads [[], ['0', 'x']] readLower := by
  intro t a
  unfold readLower
  split
  · refine iff_of_false nofun ?_
    rintro ⟨mark, hmark, digits, ht, hpairs⟩
    rcases List.mem_pair.1 hmark with rfl | rfl
    · rw [List.nil_append] at ht
      have hcapital : 'X' ∈ digits := ht ▸ List.mem_cons_of_mem _ List.mem_cons_self
      exact Address.not_mem_of_pairs hpairs (by decide) (by decide) hcapital
    · exact absurd (List.cons.inj (List.cons.inj ht).2).1 (by decide)
  · rename_i hcapital
    rw [Address.reads_read]
    constructor
    · rintro ⟨mark, hmark, digits, rfl, hpairs⟩
      rcases List.mem_cons.1 hmark with rfl | hmark
      · exact ⟨_, List.mem_cons_self, digits, rfl, hpairs⟩
      rcases List.mem_pair.1 hmark with rfl | rfl
      · exact ⟨_, List.mem_cons_of_mem _ List.mem_cons_self, digits, rfl, hpairs⟩
      · exact absurd rfl (hcapital digits)
    · rintro ⟨mark, hmark, hspelled⟩
      exact ⟨mark, List.mem_cons.2 ((List.mem_pair.1 hmark).imp_right fun h => List.mem_pair.2 (.inl h)), hspelled⟩

/-- An address by two spellings, each with a label of its own. -/
def respelled : Settings where
  names := Keyed.ofList [("0x10000000000000000000000000000000deadbeef".toList, "Vault".toList),
    (" 10000000000000000000000000000000DeadBeef\t".toList, "Old".toList)]

/-- A good key between two that spell no address. -/
def misspelled : Settings where
  names := Keyed.ofList [("vault".toList, "Vault".toList),
    ("0x10000000000000000000000000000000deadbeef".toList, "Vault".toList), ("0xdeadbeef".toList, "Short".toList)]

theorem addressBook_exact_respelled :
    Reads [[], ['0', 'x']] readLower ∧
    (∃ book, respelled.addressBook readLower = .ok book ∧
      book.get? (BitVec.ofNat 160 0x10000000000000000000000000000000deadbeef) = some "Vault".toList) ∧
    misspelled.addressBook readLower = .error (.invalidName "0xdeadbeef".toList .length) := by
  have htext : ∀ {t a}, readLower t = .ok a → Address.IsText [[], ['0', 'x']] t := fun h =>
    Address.isText_iff.2 ⟨_, (reads_readLower _ _).1 h⟩
  refine ⟨reads_readLower, ?_, ?_⟩
  · have hentries : respelled.names.entries =
        [(" 10000000000000000000000000000000DeadBeef\t".toList, "Old".toList),
          ("0x10000000000000000000000000000000deadbeef".toList, "Vault".toList)] := by
      decide +kernel
    have hreads : ∀ e ∈ respelled.names.entries, readLower (Text.trim e.1) =
        .ok (BitVec.ofNat 160 0x10000000000000000000000000000000deadbeef) := by
      rw [hentries]
      exact List.forall_mem_cons.2 ⟨by decide +kernel, List.forall_mem_singleton.2 (by decide +kernel)⟩
    obtain ⟨hbook, hresolves, -⟩ := addressBook_exact reads_readLower respelled
    obtain ⟨book, hbook⟩ := hbook.2 fun e he => htext (hreads e he)
    have hmem : ("0x10000000000000000000000000000000deadbeef".toList, "Vault".toList) ∈
        respelled.names.entries := by
      rw [hentries]
      exact List.mem_cons_of_mem _ (List.mem_singleton_self _)
    refine ⟨book, hbook, ((hresolves book hbook).greatest _ _).2
      ⟨_, hmem, (reads_readLower _ _).1 (hreads _ hmem), ?_⟩⟩
    intro e he _
    rw [hentries] at he
    rcases List.mem_pair.1 he with rfl | rfl
    · exact .inr (Text.before_iff.1 (by decide))
    · exact .inl rfl
  · have hentries : misspelled.names.entries =
        [("0x10000000000000000000000000000000deadbeef".toList, "Vault".toList),
          ("0xdeadbeef".toList, "Short".toList), ("vault".toList, "Vault".toList)] := by
      decide +kernel
    have hflaw : readLower (Text.trim "0xdeadbeef".toList) = .error .length := by decide +kernel
    refine ((addressBook_exact reads_readLower misspelled).2.2 _).2
      ⟨_, _, ⟨⟨"Short".toList, ?_⟩, ?_, ?_⟩, hflaw, rfl, rfl⟩
    · rw [hentries]
      exact List.mem_cons_of_mem _ List.mem_cons_self
    · intro hshort
      obtain ⟨a, ha⟩ := Address.isText_iff.1 hshort
      rw [(reads_readLower _ _).2 ha] at hflaw
      cases hflaw
    · rw [hentries]
      refine List.forall_mem_cons.2 ⟨fun hgood => ?_, List.forall_mem_cons.2 ⟨fun _ => .inl rfl,
        List.forall_mem_singleton.2 fun _ => .inr (Text.before_iff.1 (by decide))⟩⟩
      have hread : readLower (Text.trim "0x10000000000000000000000000000000deadbeef".toList) =
          .ok (BitVec.ofNat 160 0x10000000000000000000000000000000deadbeef) := by
        decide +kernel
      exact absurd (htext hread) hgood

end Settings

end StepScope
