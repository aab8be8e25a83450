import StepScope.Proofs.Frame
import StepScope.Proofs.HexInput
import StepScope.Proofs.Lines
import StepScope.Proofs.StoragePanel

/-!
Where the labels of an address book are shown. A word is shown with a label if its number is that of an
address with the label, from `2 ^ 64` on; every other word is shown as it is without a book. So what two
renderers of one surface show differs by the labels of words alone.
-/

namespace StepScope

open Text (ofLines)

theorem Word.toAddress_eq (w : Word) : w.toAddress = BitVec.ofNat 160 w.toNat := by
  apply BitVec.eq_of_toNat_eq
  rw [toAddress, BitVec.toNat_setWidth, BitVec.toNat_ofNat]

namespace Renderer

/-- The renderer without its address book. -/
def nameless (r : Renderer) : Renderer := { r with book := none }

/-- The label of the address with the number of a word. Smaller words are numbers, whatever addresses
have their number. -/
def labelOf? (r : Renderer) (w : Word) : Option Text :=
  if 2 ^ 64 ≤ w.toNat ∧ w.toNat < 2 ^ 160 then r.nameOf? (BitVec.ofNat 160 w.toNat) else none

/-- A word by its label and the ends of its address, and one without a label as it is without a book. -/
def labelled (r : Renderer) (w : Word) : Text :=
  match r.labelOf? w with
  | some label =>
    r.surface.escape label ++ "(0x".toList ++ Address.abridged (BitVec.ofNat 160 w.toNat) ++ [')']
  | none => r.nameless.word w

variable {r r' : Renderer} {w : Word} {label : Text}

theorem nameOf?_nameless (r : Renderer) (a : Address) : r.nameless.nameOf? a = none := rfl

/-- Words with a label are taken for addresses, and no other words have one. -/
theorem labelOf?_eq_some_iff :
    r.labelOf? w = some label ↔
      WordClass.ofWord w = .address w.toAddress ∧ r.nameOf? w.toAddress = some label := by
  constructor
  · intro h
    rw [labelOf?] at h
    split at h
    · rename_i hrange
      exact ⟨WordClass.ofWord_eq_iff.2 (.address hrange.1 hrange.2), w.toAddress_eq ▸ h⟩
    · cases h
  · rintro ⟨hclass, hname⟩
    have hclassified := WordClass.ofWord_classified w
    rw [hclass] at hclassified
    cases hclassified with
    | address hlow hhigh => rw [labelOf?, if_pos ⟨hlow, hhigh⟩, ← w.toAddress_eq, hname]

/-- A book is of use for addresses only. -/
theorem value_nameless {v : WordClass} (h : ∀ a, v = .address a → r.nameOf? a = none) :
    r.value v = r.nameless.value v := by
  cases v with
  | unsigned n => rfl
  | signed n => rfl
  | address a => rw [value, value, address_of_nameless (h a rfl), address_of_nameless (r.nameOf?_nameless a)]
  | packed p => rfl
  | raw w => rfl

theorem word_of_labelOf? (h : r.labelOf? w = some label) :
    r.word w =
      r.surface.escape label ++ "(0x".toList ++ Address.abridged (BitVec.ofNat 160 w.toNat) ++ [')'] := by
  obtain ⟨hclass, hname⟩ := labelOf?_eq_some_iff.1 h
  rw [word, hclass, value, address_of_nameOf? hname, w.toAddress_eq]

theorem word_of_labelOf?_eq_none (h : r.labelOf? w = none) : r.word w = r.nameless.word w := by
  refine value_nameless fun a hclass => ?_
  cases hname : r.nameOf? a with
  | none => rfl
  | some label =>
    have haddress : a = w.toAddress := by
      cases WordClass.ofWord_eq_iff.1 hclass with
      | address => rfl
    subst haddress
    exact absurd (h.symm.trans (labelOf?_eq_some_iff.2 ⟨hclass, hname⟩)) nofun

/-- Labels are shown where words have them and nowhere else. -/
theorem word_eq_labelled (r : Renderer) (w : Word) : r.word w = r.labelled w := by
  rw [labelled]
  cases hlabel : r.labelOf? w with
  | none => exact word_of_labelOf?_eq_none hlabel
  | some label => exact word_of_labelOf? hlabel

/-- A text tells whether its word has a label. -/
theorem ofText_word_of_labelOf? (h : r.labelOf? w = some label) : Form.ofText (r.word w) = .named := by
  obtain ⟨hclass, hname⟩ := labelOf?_eq_some_iff.1 h
  rw [word, hclass, value, ofText_named hname]

theorem ofText_word_of_labelOf?_eq_none (h : r.labelOf? w = none) : Form.ofText (r.word w) ≠ .named := by
  rw [word_of_labelOf?_eq_none h]
  intro hform
  have hformed := r.nameless.value_formed (WordClass.ofWord w)
  rw [← word, hform] at hformed
  generalize WordClass.ofWord w = v at hformed
  cases hformed with
  | named hname => cases hname

/-- Two renderers of one surface show a word alike exactly if it has the same label in both. -/
theorem word_eq_word_iff (hsurface : r'.surface = r.surface) :
    r.word w = r'.word w ↔ r.labelOf? w = r'.labelOf? w := by
  cases hlabel : r.labelOf? w with
  | none =>
    cases hlabel' : r'.labelOf? w with
    | none =>
      have hnameless : r'.nameless = r.nameless := by rw [nameless, nameless, hsurface]
      refine iff_of_true ?_ rfl
      rw [word_of_labelOf?_eq_none hlabel, word_of_labelOf?_eq_none hlabel', hnameless]
    | some label' =>
      refine iff_of_false (fun h => ?_) nofun
      exact ofText_word_of_labelOf?_eq_none hlabel (h ▸ ofText_word_of_labelOf? hlabel')
  | some label =>
    cases hlabel' : r'.labelOf? w with
    | none =>
      refine iff_of_false (fun h => ?_) nofun
      exact ofText_word_of_labelOf?_eq_none hlabel' (h ▸ ofText_word_of_labelOf? hlabel)
    | some label' =>
      rw [word_of_labelOf? hlabel, word_of_labelOf? hlabel', hsurface]
      simp only [List.append_left_inj, r.surface.escape_injective.eq_iff, Option.some.injEq]

theorem stack_congr {words : List Word} (h : ∀ w ∈ words, r.word w = r'.word w) :
    r.stack words = r'.stack words := by
  rw [stack_eq_ofLines, stack_eq_ofLines]
  exact congrArg ofLines (List.map_congr_left fun w hw => h w (List.mem_reverse.1 hw))

end Renderer

/-- The words of a snapshot that are shown as such: its stack, and the keys and values of its storage. -/
def Snapshot.words (x : Snapshot) : List Word :=
  x.stack ++ x.storage.entries.flatMap fun e => [e.1, e.2]

/-- Only the words of a snapshot are shown by a renderer. -/
theorem View.text_congr {x : Snapshot} {r r' : Renderer} (hsurface : r'.surface = r.surface)
    (h : ∀ w ∈ x.words, r.word w = r'.word w) :
    View.text { snapshot := x, renderer := r } = View.text { snapshot := x, renderer := r' } := by
  have hstack : r.stack x.stack = r'.stack x.stack :=
    Renderer.stack_congr fun w hw => h w (List.mem_append_left _ hw)
  have hstorage : r.storage x.storage = r'.storage x.storage := by
    refine Renderer.storage_congr hsurface fun e he => ?_
    have hslot : ∀ w ∈ [e.1, e.2], r.word w = r'.word w :=
      fun w hw => h w (List.mem_append_right _ (List.mem_flatMap_of_mem he hw))
    exact ⟨hslot e.1 List.mem_cons_self, hslot e.2 (List.mem_cons_of_mem _ List.mem_cons_self)⟩
  simp only [text, stack, storage, hstack, hstorage]
  rfl

namespace Command

variable {r r' : Renderer} {t : Text} {w : Word}

theorem value_of_word (h : HexInput.word t = .ok w) : value r t = .ok (r.word w ++ ['\n']) := by
  rw [value, h]
  rfl

theorem value_eq_value_iff (hsurface : r'.surface = r.surface) :
    value r t = value r' t ↔ ∀ w, HexInput.word t = .ok w → r.labelOf? w = r'.labelOf? w := by
  cases hword : HexInput.word t with
  | error e =>
    refine iff_of_true ?_ nofun
    rw [value, value, hword]
    rfl
  | ok w =>
    rw [value_of_word hword, value_of_word hword, Except.ok.injEq, List.append_left_inj,
      Renderer.word_eq_word_iff hsurface]
    constructor
    · rintro h _ ⟨⟩
      exact h
    · intro h
      exact h w rfl

/-- What is shown of a snapshot depends on the renderer by the labels of the words in it. -/
theorem snapshot_congr {files files' : Files} {path : Text} (hsurface : r'.surface = r.surface)
    (hfile : files'.readText? path = files.readText? path)
    (h : ∀ t x, files.readText? path = some t → Snapshot.ofJson t = .ok x →
      ∀ w ∈ x.words, r.labelOf? w = r'.labelOf? w) :
    snapshot r files path = snapshot r' files' path := by
  unfold snapshot
  rw [hfile]
  cases hread : files.readText? path with
  | none => rfl
  | some t =>
    cases hparse : Snapshot.ofJson t with
    | error fault => simp only [hparse]
    | ok x =>
      have hwords : ∀ w ∈ x.words, r.word w = r'.word w :=
        fun w hw => (Renderer.word_eq_word_iff hsurface).2 (h t x hread hparse w hw)
      simp only [hparse, View.text_congr hsurface hwords]

end Command

namespace Run

/-- A run that is asked for a word shows it with the names of the settings that it finds. -/
theorem perform_value {env : Environment} {files : Files} {request : CommandLine.Request} {host : Host}
    {path : Text} {s : Settings} {r : Renderer} {t : Text} {w : Word} (haction : request.action = .value t)
    (hpath : settingsPath env request host = .ok path) (hload : Settings.loadIfAny files path = .ok s)
    (hrenderer : s.renderer request.html = .ok r) (hword : HexInput.word t = .ok w) :
    perform env files request host = ⟨.answered (r.word w ++ ['\n']), files⟩ := by
  rw [perform, act_of_prepare (prepare_of_load hpath hload hrenderer), haction]
  simp only [command, Command.value_of_word hword, Files.unchanged]

end Run

/-- Wherever a renderer shows words it shows the labels of those that have one, and every other word as
it is without a book. -/
structure ShowsLabels (r : Renderer) : Prop where
  value : ∀ t w, HexInput.word t = .ok w → Command.value r t = .ok (r.labelled w ++ ['\n'])
  stack : ∀ words, r.stack words = ofLines (words.reverse.map r.labelled)
  storage : ∀ slots : Keyed Word Word, r.storage slots =
    slots.entries.flatMap fun e => '@' :: r.labelled e.1 ++ r.surface.gap ++ r.labelled e.2

theorem Renderer.showsLabels (r : Renderer) : ShowsLabels r where
  value t w hword := by rw [Command.value_of_word hword, r.word_eq_labelled]
  stack words := by rw [r.stack_eq_ofLines, funext r.word_eq_labelled]
  storage slots := by
    rw [r.storage_eq]
    exact List.flatMap_congr fun e _ => by rw [slot, r.word_eq_labelled, r.word_eq_labelled]

/-- Renderers that show the same but for the labels of words: the command for one word gives the same
exactly if the word has the same label, and the other texts are the same if all words in them have. -/
structure SameButLabels (r r' : Renderer) : Prop where
  value : ∀ t, Command.value r t = Command.value r' t ↔
    ∀ w, HexInput.word t = .ok w → r.labelOf? w = r'.labelOf? w
  stack : ∀ words : List Word, (∀ w ∈ words, r.labelOf? w = r'.labelOf? w) → r.stack words = r'.stack words
  storage : ∀ slots : Keyed Word Word,
    (∀ e ∈ slots.entries, r.labelOf? e.1 = r'.labelOf? e.1 ∧ r.labelOf? e.2 = r'.labelOf? e.2) →
      r.storage slots = r'.storage slots
  snapshot : ∀ (files files' : Files) (path : Text), files'.readText? path = files.readText? path →
    (∀ t x, files.readText? path = some t → Snapshot.ofJson t = .ok x →
      ∀ w ∈ x.words, r.labelOf? w = r'.labelOf? w) →
    Command.snapshot r files path = Command.snapshot r' files' path

theorem Renderer.sameButLabels {r r' : Renderer} (hsurface : r'.surface = r.surface) :
    SameButLabels r r' where
  value _ := Command.value_eq_value_iff hsurface
  stack _ h := stack_congr fun w hw => (word_eq_word_iff hsurface).2 (h w hw)
  storage _ h := storage_congr hsurface fun e he =>
    ⟨(word_eq_word_iff hsurface).2 (h e he).1, (word_eq_word_iff hsurface).2 (h e he).2⟩
  snapshot _ _ _ hfile h := Command.snapshot_congr hsurface hfile h

namespace Settings

/-- The names of settings are shown for the words that have one of them, and only there. If the names
make up an address book, the settings have a renderer with the book, and it shows the labels of words
wherever words are shown: in the command for one word, which every word is an input of, from the files
to the text that is printed, and in the stack and the storage. Any other renderer of the surface, with
another book or with none, shows the same but for the labels of words. -/
theorem names_shown {s : Settings} {book : AddressBook} (hbook : s.addressBook = .ok book) (html : Bool) :
    ∃ r : Renderer, s.renderer html = .ok r ∧ r.surface = (if html then .html else s.surface) ∧
      r.book = some book ∧ ShowsLabels r ∧ (∀ w, ∃ t, HexInput.word t = .ok w) ∧
      (∀ (env : Environment) (files : Files) (request : CommandLine.Request) (host : Host) (path t : Text)
        (w : Word), Run.settingsPath env request host = .ok path → loadIfAny files path = .ok s →
        request.html = html → request.action = .value t → HexInput.word t = .ok w →
          Run.perform env files request host = ⟨.answered (r.labelled w ++ ['\n']), files⟩) ∧
      ∀ r' : Renderer, r'.surface = r.surface → SameButLabels r r' := by
  have hrenderer := renderer_of_addressBook hbook html
  refine ⟨_, hrenderer, rfl, rfl, Renderer.showsLabels _, fun w => ⟨_, HexInput.word_ofBytes w⟩, ?_,
    fun _ hsurface => Renderer.sameButLabels hsurface⟩
  rintro env files request host path t w hpath hload rfl haction hword
  rw [Run.perform_value haction hpath hload hrenderer hword, Renderer.word_eq_labelled]

/-- Names of an address and of one that is a small number. -/
def twoNames : Settings where
  names := Keyed.ofList [("0x00000000000000000000000000000000deadbeef".toList, "Small".toList),
    ("0x10000000000000000000000000000000deadbeef".toList, "<Vault>".toList)]

/-- The address book of the two names. -/
def twoNamesBook : AddressBook :=
  Keyed.ofList [(BitVec.ofNat 160 0xdeadbeef, "Small".toList),
    (BitVec.ofNat 160 0x10000000000000000000000000000000deadbeef, "<Vault>".toList)]

/-- A request for a word under the two names, which are stored at `s`. -/
def twoNamesRequest (word : String) : CommandLine.Request :=
  { config := some ['s'], html := true, logFile := false, action := .value word.toList }

/-- A file of the two names at `s`. -/
def twoNamesFiles : Files := Files.put {} [['s']] (.file (Text.utf8 twoNames.toToml))

theorem names_shown_twoNames :
    Run.perform Keyed.empty twoNamesFiles (twoNamesRequest "10000000000000000000000000000000DEADBEEF") {} =
        ⟨.answered "&lt;Vault&gt;(0x1000…beef)\n".toList, twoNamesFiles⟩ ∧
      Run.perform Keyed.empty twoNamesFiles (twoNamesRequest "0xdeadbeef") {} =
        ⟨.answered " 3735928559 (0xdeadbeef)\n".toList, twoNamesFiles⟩ := by
  obtain ⟨⟨surface, book⟩, -, hsurface, hbook, -, -, hshown, -⟩ :=
    @names_shown twoNames twoNamesBook (by decide +kernel) true
  cases hsurface
  cases hbook
  have hsave : save twoNames {} ['s'] = .ok twoNamesFiles := rfl
  have hload : loadIfAny twoNamesFiles ['s'] = .ok twoNames := loadIfAny_of_load (load_of_save hsave)
  constructor
  · rw [hshown _ _ _ {} _ _ (BitVec.ofNat 256 0x10000000000000000000000000000000deadbeef) rfl hload rfl rfl
      (by decide +kernel)]
    decide +kernel
  · rw [hshown _ _ _ {} _ _ (BitVec.ofNat 256 0xdeadbeef) rfl hload rfl rfl (by decide +kernel)]
    decide +kernel

end Settings

end StepScope
