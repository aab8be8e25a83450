import StepScope.Proofs.Lines

/-!
The text of a view tells its panels. Every panel is made of whole lines none of which is the title that
comes next, so the text is taken apart at the titles; and a body that ends in a line break is never the
body without that line break.
-/

namespace StepScope

open Text (ofLines)

namespace HexDump

/-- A row without its line break. -/
def line (offset : Nat) (bytes : Bytes) : Text :=
  Text.offset offset ++ ' ' :: bytes.flatMap fun b => Hex.ofByte b ++ [' ']

theorem isHexDigit_or_space_of_mem_line {offset : Nat} {bytes : Bytes} {c : Char}
    (h : c ∈ line offset bytes) : Text.IsHexDigit c ∨ c = ' ' := by
  rcases List.mem_append.1 h with h | h
  · exact .inl (Text.isHexDigit_of_mem_offset h)
  rcases List.mem_cons.1 h with h | h
  · exact .inr h
  obtain ⟨b, _, hb⟩ := List.mem_flatMap.1 h
  rcases List.mem_append.1 hb with hb | hb
  · exact .inl (Hex.isHexDigit_of_mem_ofByte hb)
  · exact .inr (List.mem_singleton.1 hb)

theorem line_ne_nil (offset : Nat) (bytes : Bytes) : line offset bytes ≠ [] :=
  List.append_ne_nil_of_right_ne_nil _ (List.cons_ne_nil _ _)

/-- The rows of a dump as lines: none is empty, and they consist of digits and spaces. -/
theorem exists_lines (offset : Nat) (bytes : Bytes) :
    ∃ lines, (rows offset bytes).flatten = ofLines lines ∧ [] ∉ lines ∧
      ∀ l ∈ lines, ∀ c ∈ l, Text.IsHexDigit c ∨ c = ' ' := by
  fun_induction rows offset bytes with
  | case1 offset => exact ⟨[], rfl, List.not_mem_nil, List.forall_mem_nil _⟩
  | case2 offset b rest ih =>
    obtain ⟨lines, hlines, hne, hall⟩ := ih
    refine ⟨line offset ((b :: rest).take width) :: lines, ?_, ?_, ?_⟩
    · rw [List.flatten_cons, hlines, Text.ofLines_cons, row, line]
      simp
    · simp [hne, (line_ne_nil _ _).symm]
    · exact List.forall_mem_cons.2 ⟨fun c => isHexDigit_or_space_of_mem_line, hall⟩

/-- A dump with an empty line behind it is no dump. -/
theorem text_append_newline_ne (a b : Bytes) : text a ++ ['\n'] ≠ text b := by
  intro h
  obtain ⟨ls, hls, _, ha⟩ := exists_lines 0 a
  obtain ⟨ms, hms, hne, hb⟩ := exists_lines 0 b
  have hflat : ∀ {lines : List Text}, (∀ l ∈ lines, ∀ c ∈ l, Text.IsHexDigit c ∨ c = ' ') →
      ∀ l ∈ lines, '\n' ∉ l := fun hall l hl hmem => absurd (hall l hl _ hmem) (by decide)
  have hlines : ofLines (ls ++ [[]]) = ofLines ms := by
    rw [Text.ofLines_append, ← hls, ← hms]
    exact h
  have heq : ls ++ [[]] = ms := by
    refine Text.ofLines_inj ?_ (hflat hb) hlines
    exact List.forall_mem_append.2 ⟨hflat ha, List.forall_mem_singleton.2 List.not_mem_nil⟩
  exact hne (heq ▸ List.mem_append_right ls (List.mem_singleton_self _))

end HexDump

namespace View

/-- The line of a title. -/
def titleLine (title : String) : Text := '[' :: title.toList ++ [']']

theorem panel_eq (title : String) (body : Text) :
    panel title body = titleLine title ++ '\n' :: closed body := by
  simp [panel, titleLine]

theorem text_eq (v : View) :
    v.text = v.header ++ '\n' :: (titleLine "stack" ++ '\n' :: (closed v.stack ++
      (titleLine "storage" ++ '\n' :: (closed v.storage ++
      (titleLine "memory" ++ '\n' :: (closed v.memory ++
      (titleLine "call data" ++ '\n' :: (closed v.callData ++
      (titleLine "levels" ++ '\n' :: (closed (v.levels.intersperse ['\n']).flatten ++
      (titleLine "outcome" ++ '\n' :: closed v.outcome.text))))))))))) := by
  simp [text, panel_eq]

/-- A body that is closed in the same way is the same, unless it is the other one with a line break. -/
theorem closed_inj {s t : Text} (hs : s ++ ['\n'] ≠ t) (ht : t ++ ['\n'] ≠ s)
    (h : closed s = closed t) : s = t := by
  rw [closed, closed] at h
  split at h
  · split at h
    · exact h
    · exact absurd h.symm ht
  · split at h
    · exact absurd h hs
    · exact List.append_cancel_right h

/-- The lines of a closed body, in front of the next title. -/
structure Laid (next : String) (body : Text) (lines : List Text) : Prop where
  closed_eq : closed body = ofLines lines
  apart : ∀ l ∈ lines, '\n' ∉ l ∧ l ≠ titleLine next

theorem Laid.append_inj {next : String} {s t : Text} {b c : Text} {ls ms : List Text}
    (hb : Laid next b ls) (hc : Laid next c ms) (hnext : '\n' ∉ titleLine next)
    (h : closed b ++ (titleLine next ++ '\n' :: s) = closed c ++ (titleLine next ++ '\n' :: t)) :
    ls = ms ∧ s = t := by
  rw [hb.closed_eq, hc.closed_eq] at h
  exact Text.ofLines_append_inj hnext hb.apart hc.apart h

/-- A panel without lines shows an empty one. -/
def shown (lines : List Text) : List Text := if lines = [] then [[]] else lines

theorem shown_inj {ls ms : List Text} (hls : [] ∉ ls) (hms : [] ∉ ms) (h : shown ls = shown ms) :
    ls = ms := by
  rw [shown, shown] at h
  split at h
  · split at h
    · rename_i hnil hnil'
      rw [hnil, hnil']
    · exact absurd (h ▸ List.mem_singleton_self _) hms
  · split at h
    · exact absurd (h.symm ▸ List.mem_singleton_self _) hls
    · exact h

theorem laid_ofLines {next : String} {lines : List Text}
    (h : ∀ l ∈ lines, '\n' ∉ l ∧ l ≠ titleLine next) : Laid next (ofLines lines) (shown lines) := by
  rw [shown]
  split
  · rename_i hnil
    subst hnil
    exact ⟨rfl, by simp [titleLine]⟩
  · rename_i hne
    refine ⟨?_, h⟩
    rw [closed, if_pos (Text.getLast?_ofLines hne)]

variable {v u : View}

theorem laid_stack (h : v.renderer.OneLine) :
    Laid "storage" v.stack (shown (v.snapshot.stack.reverse.map v.renderer.word)) := by
  rw [stack, Renderer.stack_eq_ofLines]
  refine laid_ofLines (List.forall_mem_map.2 fun w _ => ?_)
  refine ⟨Renderer.newline_not_mem_word h w, fun htitle => ?_⟩
  have hlast := v.renderer.getLast?_value_ne (.ofWord w)
  rw [← Renderer.word, htitle, titleLine, List.getLast?_concat] at hlast
  exact hlast rfl

theorem laid_storage (h : v.renderer.OneLine) : Laid "memory" v.storage [v.storage] := by
  have hflat : '\n' ∉ v.storage := by
    intro hmem
    rw [storage, Renderer.storage_eq] at hmem
    obtain ⟨e, _, hslot⟩ := List.mem_flatMap.1 hmem
    simp [Renderer.slot, Renderer.newline_not_mem_word h, Surface.newline_not_mem_gap] at hslot
  refine ⟨?_, List.forall_mem_singleton.2 ⟨hflat, ?_⟩⟩
  · rw [closed, if_neg fun hlast => hflat (List.mem_of_getLast? hlast), Text.ofLines_cons,
      Text.ofLines_nil]
  · rw [storage, Renderer.storage_eq]
    cases v.snapshot.storage.entries <;> simp [Renderer.slot, titleLine]

theorem laid_dump (next : String) (bytes : Bytes) :
    ∃ lines, HexDump.text bytes = ofLines lines ∧ [] ∉ lines ∧
      Laid next (HexDump.text bytes) (shown lines) := by
  obtain ⟨lines, htext, hne, hlines⟩ := HexDump.exists_lines 0 bytes
  refine ⟨lines, htext, hne, ?_⟩
  rw [HexDump.text, htext]
  refine laid_ofLines fun l hl => ⟨fun hmem => ?_, ?_⟩
  · exact absurd (hlines l hl _ hmem) (by decide)
  · rintro rfl
    exact absurd (hlines _ hl '[' List.mem_cons_self) (by decide)

/-! Frames -/

theorem ellipsis_mem_of_mem_levels {l : Text} (h : l ∈ v.levels) : '…' ∈ l := by
  have habridged : ∀ a : Address, '…' ∈ a.abridged := fun a =>
    List.mem_append_right _ List.mem_cons_self
  rcases List.mem_cons.1 h with rfl | h
  · exact habridged _
  · obtain ⟨caller, _, rfl⟩ := List.mem_map.1 h
    simp [habridged]

theorem newline_not_mem_of_mem_levels {l : Text} (h : l ∈ v.levels) : '\n' ∉ l := by
  rcases List.mem_cons.1 h with rfl | h
  · exact Address.newline_not_mem_abridged _
  · obtain ⟨caller, _, rfl⟩ := List.mem_map.1 h
    simp

/-- Lines with line breaks between them, which make a text that does not end in one. -/
theorem closed_intersperse {lines : List Text} (hne : lines ≠ []) (h : ∀ l ∈ lines, '\n' ∉ l ∧ l ≠ []) :
    closed (lines.intersperse ['\n']).flatten = ofLines lines := by
  have hrest : ∀ lines : List Text, (∀ l ∈ lines, '\n' ∉ l ∧ l ≠ []) →
      ∀ l, '\n' ∉ l → (l ++ lines.flatMap (['\n'] ++ ·)).getLast? ≠ some '\n' ∧
        l ++ lines.flatMap (['\n'] ++ ·) ++ ['\n'] = ofLines (l :: lines) := by
    intro lines
    induction lines with
    | nil =>
      intro _ l hl
      refine ⟨fun hlast => hl ?_, by simp⟩
      exact List.mem_of_getLast? (by simpa using hlast)
    | cons m lines ih =>
      intro h l hl
      obtain ⟨⟨hm, hne⟩, hlines⟩ := List.forall_mem_cons.1 h
      obtain ⟨hlast, htext⟩ := ih hlines m hm
      refine ⟨?_, ?_⟩
      · rw [List.flatMap_cons, List.singleton_append, List.cons_append,
          List.getLast?_append_of_ne_nil _ (List.cons_ne_nil _ _), List.getLast?_cons_of_ne_nil]
        · exact hlast
        · exact List.append_ne_nil_of_left_ne_nil hne _
      · rw [Text.ofLines_cons, ← htext]
        simp
  obtain ⟨l, lines, rfl⟩ := List.exists_cons_of_ne_nil hne
  obtain ⟨⟨hl, _⟩, hlines⟩ := List.forall_mem_cons.1 h
  obtain ⟨hlast, htext⟩ := hrest lines hlines l hl
  rw [Text.flatten_intersperse_cons, closed, if_neg hlast, htext]

theorem laid_levels (v : View) :
    Laid "outcome" (v.levels.intersperse ['\n']).flatten v.levels where
  closed_eq := by
    refine closed_intersperse (List.cons_ne_nil _ _) fun l hl => ?_
    exact ⟨newline_not_mem_of_mem_levels hl, List.ne_nil_of_mem (ellipsis_mem_of_mem_levels hl)⟩
  apart := by
    intro l hl
    refine ⟨newline_not_mem_of_mem_levels hl, ?_⟩
    rintro rfl
    exact absurd (ellipsis_mem_of_mem_levels hl) (by decide)

end View

/-! Outcomes -/

/-- No outcome is another one with a line break behind it: only returned bytes end in one, and there it
ends a row. -/
theorem Outcome.text_append_newline_ne (o o' : Outcome) : o.text ++ ['\n'] ≠ o'.text := by
  intro h
  have hlast : o'.text.getLast? = some '\n' := by rw [← h, List.getLast?_concat]
  cases o' with
  | outOfGas => exact absurd hlast (by decide)
  | stopped => exact absurd hlast (by decide)
  | exception => exact absurd hlast (by decide)
  | selfDestructed a =>
    change ("SUICIDE ".toList ++ a.text).getLast? = some '\n' at hlast
    have hmem := List.mem_of_getLast? hlast
    simp at hmem
  | returned data' =>
    change o.text ++ ['\n'] = "RETURN ".toList ++ HexDump.text data' at h
    cases o with
    | outOfGas =>
      change "OUT-OF-GAS".toList ++ ['\n'] = _ at h
      simp at h
    | stopped =>
      change "STOP".toList ++ ['\n'] = _ at h
      simp at h
    | exception =>
      change "EXCEPTION".toList ++ ['\n'] = _ at h
      simp at h
    | selfDestructed a =>
      change "SUICIDE ".toList ++ a.text ++ ['\n'] = _ at h
      simp at h
    | returned data =>
      change "RETURN ".toList ++ HexDump.text data ++ ['\n'] = _ at h
      rw [List.append_assoc] at h
      exact HexDump.text_append_newline_ne data data' (List.append_cancel_left h)

namespace View

/-- Two views show the same in every panel. -/
structure SamePanels (v u : View) : Prop where
  header : v.header = u.header
  stack : v.stack = u.stack
  storage : v.storage = u.storage
  memory : v.memory = u.memory
  callData : v.callData = u.callData
  levels : v.levels = u.levels
  outcome : v.outcome.text = u.outcome.text

variable {v u : View}

theorem newline_not_mem_header (v : View) : '\n' ∉ v.header := by
  unfold header
  simp

theorem stack_eq_of_shown {r r' : Renderer} {words words' : List Word}
    (h : shown (words.reverse.map r.word) = shown (words'.reverse.map r'.word)) :
    r.stack words = r'.stack words' := by
  have hne : ∀ (r : Renderer) (words : List Word), [] ∉ words.reverse.map r.word := by
    intro r words hmem
    obtain ⟨w, _, hw⟩ := List.mem_map.1 hmem
    exact r.word_ne_nil w hw
  rw [Renderer.stack_eq_ofLines, Renderer.stack_eq_ofLines, shown_inj (hne r words) (hne r' words') h]

/-- A dump and what follows its panel are told apart at the next title. -/
theorem dump_append_inj {next : String} {s t : Text} {b c : Bytes} (hnext : '\n' ∉ titleLine next)
    (h : closed (HexDump.text b) ++ (titleLine next ++ '\n' :: s) =
      closed (HexDump.text c) ++ (titleLine next ++ '\n' :: t)) :
    HexDump.text b = HexDump.text c ∧ s = t := by
  obtain ⟨ls, hls, hne, hb⟩ := laid_dump next b
  obtain ⟨ms, hms, hne', hc⟩ := laid_dump next c
  obtain ⟨hlines, hst⟩ := hb.append_inj hc hnext h
  rw [hls, hms, shown_inj hne hne' hlines]
  exact ⟨rfl, hst⟩

/-- The text of a view tells every panel, whatever the surfaces are and whatever stands in labels, stack
and storage, as long as no label breaks a line. -/
theorem text_eq_iff (hv : v.renderer.OneLine) (hu : u.renderer.OneLine) :
    v.text = u.text ↔ SamePanels v u := by
  constructor
  · intro h
    rw [text_eq, text_eq] at h
    obtain ⟨hheader, h⟩ := Text.append_mark_inj v.newline_not_mem_header u.newline_not_mem_header h
    have h := List.tail_eq_of_cons_eq (List.append_cancel_left h)
    obtain ⟨hstack, h⟩ := (laid_stack hv).append_inj (laid_stack hu) (by decide) h
    obtain ⟨hstorage, h⟩ := (laid_storage hv).append_inj (laid_storage hu) (by decide) h
    obtain ⟨hmemory, h⟩ := dump_append_inj (by decide) h
    obtain ⟨hcallData, h⟩ := dump_append_inj (by decide) h
    obtain ⟨hlevels, houtcome⟩ := v.laid_levels.append_inj u.laid_levels (by decide) h
    exact {
      header := hheader
      stack := stack_eq_of_shown hstack
      storage := List.singleton_inj.1 hstorage
      memory := hmemory
      callData := hcallData
      levels := hlevels
      outcome := closed_inj (Outcome.text_append_newline_ne _ _) (Outcome.text_append_newline_ne _ _)
        houtcome }
  · rintro ⟨hheader, hstack, hstorage, hmemory, hcallData, hlevels, houtcome⟩
    rw [text, text, hheader, hstack, hstorage, hmemory, hcallData, hlevels, houtcome]

/-- A word on the stack over an address that is named like a title. -/
def titled (surface : Surface) (w : Word) : View where
  snapshot := { stack := [w, 0x100000000000000000000000000000000000beef] }
  renderer := ⟨surface, some (Keyed.ofList
    [(0x100000000000000000000000000000000000beef, "[memory]".toList)])⟩

theorem text_eq_iff_titled :
    (titled .plain 5).renderer.OneLine ∧ (titled .html (5 - 0x10000000000000000)).renderer.OneLine ∧
      (titled .plain 5).text = (titled .html (5 - 0x10000000000000000)).text ∧
      (titled .plain 5).text ≠ (titled .html 6).text := by
  have honeLine : ∀ s w, (titled s w).renderer.OneLine := by
    intro s w book hbook e he
    cases hbook
    cases he with
    | head => decide
    | tail _ he => cases he
  have hstorage : ∀ s w, (titled s w).storage = [] := fun s w => (titled s w).renderer.storage_eq Keyed.empty
  have hsame : SamePanels (titled .plain 5) (titled .html (5 - 0x10000000000000000)) :=
    ⟨rfl, by decide, (hstorage _ _).trans (hstorage _ _).symm, rfl, rfl, rfl, rfl⟩
  refine ⟨honeLine _ _, honeLine _ _, (text_eq_iff (honeLine _ _) (honeLine _ _)).2 hsame, ?_⟩
  intro h
  have hstack := ((text_eq_iff (honeLine _ _) (honeLine _ _)).1 h).stack
  exact absurd hstack (by decide)

end View

end StepScope
