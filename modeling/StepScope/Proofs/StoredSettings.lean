import StepScope.Command
import StepScope.Proofs.Files
import StepScope.Proofs.Keyed
import StepScope.Proofs.TomlDocument

/-!
Settings read back from their text, with or without the line that names their path, and from the file
that the text was written into.
-/

namespace StepScope.Settings

open Toml (Value Entries readLinesInto quotedKey quoted)

/-- The line of a name and its label. -/
def nameLine (e : Text × Text) : Text :=
  quotedKey e.1 ++ " = ".toList ++ quoted e.2 ++ ['\n']

/-- A name and its label as they stand in a table. -/
def nameEntry (e : Text × Text) : Text × Value := (e.1, .text e.2)

/-- The tables that the text of settings writes. -/
def document (s : Settings) : Entries :=
  [("display".toList, .table .headed [("surface".toList, .text s.surface.name)]),
    ("names".toList, .table .headed (s.names.entries.map nameEntry))]

/-- Lines of new names add their entries to the open table, in the same order. -/
theorem readLinesInto_names {limit : Nat} {table : Text} {root inner : Entries}
    {names : List (Text × Text)} (hlimit : names.length < limit)
    (htable : root.find? table = some (.table .headed inner))
    (hkeys : (inner.map Prod.fst ++ names.map Prod.fst).Nodup) :
    readLinesInto limit [table] root (names.flatMap nameLine) =
      some (root.put table (.table .headed (inner ++ names.map nameEntry))) := by
  induction names generalizing limit root inner with
  | nil =>
    obtain ⟨limit, rfl⟩ := Nat.exists_eq_succ_of_ne_zero (Nat.ne_of_gt hlimit)
    rw [List.flatMap_nil, Toml.readLinesInto_nil, List.map_nil, List.append_nil,
      Entries.put_of_find? htable]
  | cons e names ih =>
    obtain ⟨limit, rfl⟩ := Nat.exists_eq_succ_of_ne_zero (Nat.ne_zero_of_lt hlimit)
    have hnew : e.1 ∉ inner.map Prod.fst := by
      intro hmem
      exact (List.nodup_append.1 hkeys).2.2 e.1 hmem e.1 List.mem_cons_self rfl
    have hrest : ((inner ++ [nameEntry e]).map Prod.fst ++ names.map Prod.fst).Nodup := by
      simpa [nameEntry] using hkeys
    have hline : (e :: names).flatMap nameLine =
        quotedKey e.1 ++ " = ".toList ++ quoted e.2 ++ '\n' :: names.flatMap nameLine := by
      simp [nameLine]
    rw [hline, Toml.readLinesInto_assignment, Entries.assignAt_new htable hnew, Option.bind_some,
      List.map_cons]
    have hrun := ih (Nat.lt_of_succ_lt_succ hlimit) (Entries.find?_put_self root table _) hrest
    rw [Entries.put_put_self, List.append_assoc] at hrun
    exact hrun

theorem toToml_eq (s : Settings) :
    s.toToml = '[' :: (quotedKey "display".toList ++ ']' :: '\n' ::
      (quotedKey "surface".toList ++ " = ".toList ++ quoted s.surface.name ++ '\n' :: '\n' ::
        '[' :: (quotedKey "names".toList ++ ']' :: '\n' :: s.names.entries.flatMap nameLine))) := by
  have hdisplay : quotedKey "display".toList = "display".toList := by decide
  have hsurface : quotedKey "surface".toList = "surface".toList := by decide
  have hnames : quotedKey "names".toList = "names".toList := by decide
  unfold toToml nameLine
  simp only [hdisplay, hsurface, hnames]
  simp

theorem readLinesInto_toToml (s : Settings) {limit : Nat} (h : s.names.entries.length + 4 < limit) :
    readLinesInto limit [] [] s.toToml = some s.document := by
  obtain ⟨limit, rfl⟩ := Nat.exists_eq_add_of_le' (Nat.le_of_add_left_le (Nat.le_of_lt h))
  have hlimit := Nat.lt_of_add_lt_add_right h
  have hdisplay : Entries.openTable ["display".toList] [] = some [("display".toList, .table .headed [])] :=
    rfl
  have hsurface : Entries.assignAt ["display".toList] ["surface".toList] (.text s.surface.name)
      [("display".toList, .table .headed [])] =
        some [("display".toList, .table .headed [("surface".toList, .text s.surface.name)])] := by
    rw [Entries.assignAt_new rfl List.not_mem_nil]
    rfl
  have hnames : Entries.openTable ["names".toList]
      [("display".toList, .table .headed [("surface".toList, .text s.surface.name)])] =
        some [("display".toList, .table .headed [("surface".toList, .text s.surface.name)]),
          ("names".toList, .table .headed [])] :=
    Entries.openTable_new (Entries.find?_eq_none (by simp))
  rw [toToml_eq, Toml.readLinesInto_header, hdisplay, Option.bind_some, Toml.readLinesInto_assignment,
    hsurface, Option.bind_some, Toml.readLinesInto_break, Toml.readLinesInto_header, hnames,
    Option.bind_some, readLinesInto_names hlimit rfl]
  · rfl
  · exact s.names.keys_nodup

@[simp] theorem mapM_labelOf? (names : List (Text × Text)) :
    (names.map nameEntry).mapM labelOf? = some names := by
  induction names with
  | nil => rfl
  | cons e names ih =>
    rw [List.map_cons, List.mapM_cons, ih]
    rfl

theorem displayOf?_surface (s : Surface) (kind : Toml.TableKind) :
    displayOf? (.table kind [("surface".toList, .text s.name)]) = some s := by
  have hfind : Entries.find? [("surface".toList, Value.text s.name)] "surface".toList =
      some (.text s.name) := rfl
  have hpass : passesOver ["surface".toList] [("surface".toList, Value.text s.name)] = true := rfl
  rw [displayOf?, if_pos hpass, hfind]
  exact Surface.ofName?_name s

theorem namesOf?_names (names : Keyed Text Text) (kind : Toml.TableKind) :
    namesOf? (.table kind (names.entries.map nameEntry)) = some names := by
  rw [namesOf?, mapM_labelOf?, Option.map_some, Keyed.ofList_entries]

/-- The tables that settings write hold these settings. -/
theorem ofToml?_of_read {s : Settings} {t : Text} (h : Toml.read t = some s.document) :
    ofToml? t = some s := by
  have hpass : passesOver ["display".toList, "names".toList] s.document = true := rfl
  have hdisplay : s.document.find? "display".toList =
      some (.table .headed [("surface".toList, .text s.surface.name)]) := rfl
  have hnames : s.document.find? "names".toList =
      some (.table .headed (s.names.entries.map nameEntry)) := rfl
  simp only [ofToml?, h, Option.bind_eq_bind, Option.bind_some, hpass, if_true, hdisplay, hnames,
    Option.elim_some, displayOf?_surface, namesOf?_names]

/-- Every line of a name has a character. -/
theorem length_le_length_toToml (s : Settings) : s.names.entries.length + 5 ≤ s.toToml.length := by
  have hlines : ∀ names : List (Text × Text), names.length ≤ (names.flatMap nameLine).length := by
    intro names
    induction names with
    | nil => exact Nat.le_refl 0
    | cons e names ih =>
      simp only [List.flatMap_cons, nameLine, List.length_append, List.length_cons] at ih ⊢
      omega
  have hnames := hlines s.names.entries
  rw [toToml_eq]
  simp only [List.length_append, List.length_cons]
  omega

theorem read_toToml (s : Settings) : Toml.read s.toToml = some s.document := by
  have hlength := s.length_le_length_toToml
  have hread : Toml.read s.toToml = readLinesInto (s.toToml.length + 1) [] [] s.toToml := by
    rw [toToml_eq]
    rfl
  rw [hread]
  exact readLinesInto_toToml s (by omega)

@[simp] theorem ofToml?_toToml (s : Settings) : ofToml? s.toToml = some s :=
  ofToml?_of_read s.read_toToml

/-- A path of plain characters is a comment in front of the text. -/
theorem ofToml?_settingsText (s : Settings) {path : Text} (h : ∀ c ∈ path, Toml.isPlain c = true) :
    ofToml? (Command.settingsText s path) = some s := by
  apply ofToml?_of_read
  have hplain : ∀ c ∈ ' ' :: path, Toml.isPlain c = true := List.forall_mem_cons.2 ⟨rfl, h⟩
  have hlength : s.names.entries.length + 5 ≤ (Command.settingsText s path).length := by
    have htoml := s.length_le_length_toToml
    simp only [Command.settingsText, List.length_append, List.length_cons]
    omega
  have hread : Toml.read (Command.settingsText s path) =
      readLinesInto ((Command.settingsText s path).length + 1) [] []
        ('#' :: (' ' :: path) ++ '\n' :: s.toToml) := rfl
  rw [hread, Toml.readLinesInto_comment _ _ _ hplain]
  exact readLinesInto_toToml s (by omega)

/-! Files -/

variable {refusals : Refusals}

/-- A text that was written into a file is loaded as the settings that it reads as. -/
theorem load_of_write? {files files' : Files} {path t : Text} {s : Settings}
    (hwrite : files.write? path (Text.utf8 t) refusals = some files') (ht : ofToml? t = some s) :
    load files' path = .ok s := by
  have hread : files'.readText? path = some t := by
    simp [Files.readText?, Files.read?_of_write? hwrite]
  simp only [load, hread, ht]

theorem save_eq_ok_iff {s : Settings} {files files' : Files} {path : Text} :
    s.save files path refusals = .ok files' ↔
      files.write? path (Text.utf8 s.toToml) refusals = some files' := by
  unfold save
  cases files.write? path (Text.utf8 s.toToml) refusals with
  | none => exact iff_of_false nofun nofun
  | some written => rw [Except.ok.injEq, Option.some.injEq]

/-- Where nothing is written, the report names the path and comes with the files as they were. -/
theorem save_eq_error_iff {s : Settings} {files : Files} {path : Text} {stopped : Stopped} :
    s.save files path refusals = .error stopped ↔
      files.write? path (Text.utf8 s.toToml) refusals = none ∧
        stopped = ⟨.unwritableSettings path, files⟩ := by
  unfold save
  cases files.write? path (Text.utf8 s.toToml) refusals with
  | none => rw [Except.error.injEq, eq_comm, eq_self_iff_true, true_and]
  | some written => exact iff_of_false nofun nofun

theorem load_of_save {s : Settings} {files files' : Files} {path : Text}
    (h : s.save files path refusals = .ok files') : load files' path = .ok s :=
  load_of_write? (save_eq_ok_iff.1 h) s.ofToml?_toToml

/-- The settings are shown as they are, and they are saved where nothing is if that is asked for. -/
theorem settings_eq_ok {s : Settings} {files files' : Files} {path t : Text} {create : Bool}
    (h : Command.settings s files path create refusals = .ok (t, files')) :
    t = Command.settingsText s path ∧
      (files' = files ∧ (create = true → files.contains path = true) ∨
        create = true ∧ files.contains path = false ∧ s.save files path refusals = .ok files') := by
  unfold Command.settings at h
  split at h
  · rename_i hcreate
    obtain ⟨written, hsave, hpair⟩ := bind_eq_ok h
    cases hpair
    rw [Bool.not_eq_true'] at hcreate
    exact ⟨rfl, .inr ⟨hcreate.1, hcreate.2, hsave⟩⟩
  · rename_i hcreate
    cases h
    refine ⟨rfl, .inl ⟨rfl, ?_⟩⟩
    intro h
    simpa [h] using hcreate

/-- Only a write that does not go through ends in a report. -/
theorem settings_eq_error {s : Settings} {files : Files} {path : Text} {create : Bool} {stopped : Stopped}
    (h : Command.settings s files path create refusals = .error stopped) :
    stopped = ⟨.unwritableSettings path, files⟩ := by
  unfold Command.settings at h
  split at h
  · obtain hsave | ⟨_, _, h⟩ := bind_eq_error h
    · exact (save_eq_error_iff.1 hsave).2
    · cases h
  · cases h

/-- Settings survive their text: what was saved to a path is loaded from it, and so is, once it is
written into a file, what is shown for a path of plain characters. -/
theorem load_stored (s : Settings) :
    (∀ (files : Files) (path : Text) (refusals : Refusals) (files' : Files),
      s.save files path refusals = .ok files' → load files' path = .ok s) ∧
    ∀ (files : Files) (path : Text) (create : Bool) (refusals : Refusals) (t : Text) (files' : Files),
      (∀ c ∈ path, Toml.isPlain c = true) →
      Command.settings s files path create refusals = .ok (t, files') →
      ∀ (stored : Files) (target : Text) (refusals' : Refusals) (stored' : Files),
        stored.write? target (Text.utf8 t) refusals' = some stored' → load stored' target = .ok s := by
  refine ⟨fun _ _ _ _ hsave => load_of_save hsave, ?_⟩
  intro files path create refusals t files' hpath hshow stored target refusals' stored' hwrite
  obtain ⟨rfl, -⟩ := settings_eq_ok hshow
  exact load_of_write? hwrite (s.ofToml?_settingsText hpath)

/-- Settings with an empty key, and with a label that every kind of string but one cannot hold. -/
def awkward : Settings where
  surface := .html
  names := Keyed.ofList
    [([], ['\'', '\'', '\'', '"', '"', '"', '\\', '\n', '\t', '\r', '\x7f']),
      (['\'', '"', '\n'], ['\\', '"', '"', '"'])]

theorem load_stored_awkward :
    load (Files.put {} [['a']] (.file (Text.utf8 awkward.toToml))) ['a'] = .ok awkward ∧
    load (Files.put {} [['b']] (.file (Text.utf8 (Command.settingsText awkward ['a'])))) ['b'] =
      .ok awkward :=
  ⟨(load_stored awkward).1 {} ['a'] Refusals.none _ rfl,
    (load_stored awkward).2 {} ['a'] false Refusals.none _ _ (List.forall_mem_singleton.2 rfl) rfl {} ['b']
      Refusals.none _ rfl⟩

end StepScope.Settings
