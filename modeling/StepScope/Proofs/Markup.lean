import StepScope.Proofs.Bare

/-!
What is rendered for HTML holds no markup but entities. Labels of addresses and texts in words may hold
anything; what comes of them has no tag, no open entity and no quotation mark of its own.
-/

namespace StepScope

namespace Surface

/-- What stands for markup characters and for the spaces of a gap. -/
def entities : List Text :=
  ["&amp;".toList, "&lt;".toList, "&gt;".toList, "&quot;".toList, "&#39;".toList, "&nbsp;".toList]

/-- A text without tags and apostrophes, in which every ampersand begins an entity. -/
structure Escaped (t : Text) : Prop where
  tags : '<' ∉ t ∧ '>' ∉ t ∧ '\'' ∉ t
  entities : ∀ front back, t = front ++ '&' :: back → ∃ e ∈ entities, e <+: '&' :: back

/-- The quotation marks of a text are the two around each of these packed texts, in this order. -/
inductive Quotes : List PackedText → Text → Prop
  | done {t : Text} : '"' ∉ t → Quotes [] t
  | quoted {front rest : Text} {p : PackedText} {ps : List PackedText} :
      '"' ∉ front → '"' ∉ escape .html p.text → Quotes ps rest →
      Quotes (p :: ps) (front ++ '"' :: (escape .html p.text ++ '"' :: rest))

/-- A text that an HTML display takes for text alone, with these packed texts in quotation marks. -/
structure Inert (ps : List PackedText) (t : Text) : Prop extends Escaped t where
  quotes : Quotes ps t

namespace Escaped

variable {s t : Text}

theorem append (hs : Escaped s) (ht : Escaped t) : Escaped (s ++ t) := by
  refine ⟨?_, ?_⟩
  · obtain ⟨hs₁, hs₂, hs₃⟩ := hs.tags
    obtain ⟨ht₁, ht₂, ht₃⟩ := ht.tags
    simp [hs₁, hs₂, hs₃, ht₁, ht₂, ht₃]
  · intro front back h
    rcases List.append_eq_append_iff.1 h with ⟨middle, _, hback⟩ | ⟨middle, hs', hback⟩
    · exact ht.entities middle back hback
    · cases middle with
      | nil => exact ht.entities [] back hback.symm
      | cons c middle =>
        -- The ampersand is in the first text, and so is all of its entity.
        rw [List.cons_append, List.cons.injEq] at hback
        obtain ⟨rfl, rfl⟩ := hback
        obtain ⟨e, he, hprefix⟩ := hs.entities front middle hs'
        exact ⟨e, he, hprefix.trans (List.prefix_append _ t)⟩

theorem of_forall (h : ∀ c ∈ t, c ∉ ['<', '>', '\'', '&']) : Escaped t := by
  refine ⟨⟨fun hmem => ?_, fun hmem => ?_, fun hmem => ?_⟩, ?_⟩
  · exact h _ hmem (by decide)
  · exact h _ hmem (by decide)
  · exact h _ hmem (by decide)
  · rintro front back rfl
    exact absurd (by decide) (h '&' (List.mem_append_right front List.mem_cons_self))

/-- An entity has no second ampersand. -/
theorem of_mem_entities (h : t ∈ Surface.entities) : Escaped t := by
  have hname : ∃ name, t = '&' :: name ∧ (name.all fun c => c ∉ ['<', '>', '\'', '&']) = true := by
    simp only [Surface.entities, List.mem_cons, List.not_mem_nil, or_false] at h
    rcases h with rfl | rfl | rfl | rfl | rfl | rfl <;> exact ⟨_, rfl, by decide⟩
  obtain ⟨name, rfl, hplain⟩ := hname
  have hrest := of_forall fun c hc => of_decide_eq_true (List.all_eq_true.1 hplain c hc)
  refine ⟨by simpa using hrest.tags, fun front back hsplit => ?_⟩
  cases front with
  | nil => exact ⟨_, h, hsplit ▸ List.prefix_rfl⟩
  | cons c front =>
    rw [List.cons_append, List.cons.injEq] at hsplit
    exact hrest.entities front back hsplit.2

end Escaped

theorem Quotes.append {ps qs : List PackedText} {s t : Text} (hs : Quotes ps s) (ht : Quotes qs t) :
    Quotes (ps ++ qs) (s ++ t) := by
  induction hs with
  | done hs =>
    cases ht with
    | done ht => exact .done (List.mem_append.not.2 (not_or.2 ⟨hs, ht⟩))
    | quoted hfront htext hrest =>
      rw [← List.append_assoc]
      exact .quoted (List.mem_append.not.2 (not_or.2 ⟨hs, hfront⟩)) htext hrest
  | quoted hfront htext _ ih =>
    simp only [List.append_assoc, List.cons_append]
    exact .quoted hfront htext ih

namespace Inert

variable {ps qs : List PackedText} {s t : Text}

theorem append (hs : Inert ps s) (ht : Inert qs t) : Inert (ps ++ qs) (s ++ t) :=
  ⟨hs.toEscaped.append ht.toEscaped, hs.quotes.append ht.quotes⟩

theorem flatMap {α : Type} {f : α → List PackedText} {g : α → Text} {xs : List α}
    (h : ∀ x ∈ xs, Inert (f x) (g x)) : Inert (xs.flatMap f) (xs.flatMap g) := by
  induction xs with
  | nil => exact ⟨.of_forall (List.forall_mem_nil _), .done List.not_mem_nil⟩
  | cons x xs ih =>
    obtain ⟨hx, hxs⟩ := List.forall_mem_cons.1 h
    rw [List.flatMap_cons, List.flatMap_cons]
    exact hx.append (ih hxs)

theorem of_bare (h : t.Bare) : Inert [] t := by
  have hsubset : ['<', '>', '\'', '&'] ⊆ markup := by decide
  exact ⟨.of_forall fun c hc hmem => h c hc (hsubset hmem), .done fun hmem => h _ hmem (by decide)⟩

theorem of_mem_entities (h : t ∈ entities) : Inert [] t := by
  refine ⟨.of_mem_entities h, .done ?_⟩
  revert t
  decide

theorem of_entity (c : Char) : Inert [] (entity c) := by
  unfold entity
  split
  · exact of_mem_entities (by simp [entities])
  split
  · exact of_mem_entities (by simp [entities])
  split
  · exact of_mem_entities (by simp [entities])
  split
  · exact of_mem_entities (by simp [entities])
  split
  · exact of_mem_entities (by simp [entities])
  · exact of_bare (by simp_all [markup])

theorem of_escape (t : Text) : Inert [] (escape .html t) := by
  have h : Inert (t.flatMap fun _ => []) (t.flatMap entity) := flatMap fun c _ => of_entity c
  rwa [List.flatMap_eq_nil_iff.2 fun _ _ => rfl] at h

theorem of_gap : Inert [] (gap .html) := by
  have hspace : Inert [] "&nbsp;".toList := of_mem_entities (by simp [entities])
  exact ((hspace.append hspace).append hspace).append hspace

theorem quoted (p : PackedText) (h : Inert ps t) :
    Inert (p :: ps) ('"' :: (escape .html p.text ++ '"' :: t)) := by
  have hmark : Escaped ['"'] := .of_forall (by simp)
  have htext := of_escape p.text
  refine ⟨(hmark.append htext.toEscaped).append (hmark.append h.toEscaped), ?_⟩
  cases htext.quotes with
  | done hnone =>
    have hquotes : Quotes (p :: ps) ([] ++ '"' :: (escape .html p.text ++ '"' :: t)) :=
      .quoted List.not_mem_nil hnone h.quotes
    exact hquotes

end Inert

end Surface

open Surface (Inert)

/-- The packed texts that a value shows, which is at most one. -/
def WordClass.packedTexts : WordClass → List PackedText
  | .packed p => [p]
  | _ => []

/-- The packed texts that a storage slot shows. -/
def Renderer.slotTexts (slot : Word × Word) : List PackedText :=
  (WordClass.ofWord slot.1).packedTexts ++ (WordClass.ofWord slot.2).packedTexts

namespace Renderer

variable (book : Option AddressBook)

theorem inert_address (a : Address) : Inert [] (address ⟨.html, book⟩ a) := by
  cases hname : nameOf? ⟨.html, book⟩ a with
  | none =>
    rw [address, hname]
    exact .of_bare a.bare_text
  | some label =>
    rw [address, hname]
    have hends : Text.Bare ("(0x".toList ++ a.abridged ++ [')']) := by simp [markup]
    simpa using (Inert.of_escape label).append (.of_bare hends)

theorem inert_value (v : WordClass) : Inert v.packedTexts (value ⟨.html, book⟩ v) := by
  cases v with
  | unsigned n => exact .of_bare (bare_number (Text.bare_decimal _) n)
  | signed n => exact .of_bare (bare_number (Text.bare_signedDecimal _) _)
  | address a => exact inert_address book a
  | packed p => exact .quoted p (.of_bare (bare_counter p.increment))
  | raw w => exact .of_bare (Hex.bare_ofBytes _)

theorem inert_word (w : Word) :
    Inert (WordClass.ofWord w).packedTexts (word ⟨.html, book⟩ w) := inert_value book (.ofWord w)

theorem inert_stack (words : List Word) :
    Inert (words.reverse.flatMap fun w => (WordClass.ofWord w).packedTexts)
      (stack ⟨.html, book⟩ words) := by
  refine Inert.flatMap fun w _ => ?_
  have hbreak : Inert [] ['\n'] := .of_bare (by decide)
  simpa using (inert_word book w).append hbreak

theorem inert_storage (slots : Keyed Word Word) :
    Inert (slots.entries.flatMap slotTexts) (storage ⟨.html, book⟩ slots) := by
  rw [storage_eq]
  refine Inert.flatMap fun e _ => ?_
  have hat : Inert [] ['@'] := .of_bare (by decide)
  have hkey := (hat.append (inert_word book e.1)).append .of_gap
  simpa [slot, slotTexts] using hkey.append (inert_word book e.2)

end Renderer

namespace View

/-- No panel of a view holds markup, nor does the text of all panels. The quotation marks are those
around the packed texts of the stack and of the storage. -/
structure IsInert (v : View) : Prop where
  header : Inert [] v.header
  stack : Inert (v.snapshot.stack.reverse.flatMap fun w => (WordClass.ofWord w).packedTexts) v.stack
  storage : Inert (v.snapshot.storage.entries.flatMap Renderer.slotTexts) v.storage
  memory : Inert [] v.memory
  callData : Inert [] v.callData
  levels : ∀ line ∈ v.levels, Inert [] line
  outcome : Inert [] v.outcome.text
  text : Inert ((v.snapshot.stack.reverse.flatMap fun w => (WordClass.ofWord w).packedTexts) ++
    v.snapshot.storage.entries.flatMap Renderer.slotTexts) v.text

theorem inert_panel {title : String} {ps : List PackedText} {body : Text}
    (htitle : Text.Bare title.toList) (h : Inert ps body) : Inert ps (panel title body) := by
  have hclosed : Inert ps (closed body) := by
    rw [closed]
    split
    · exact h
    · simpa using h.append (.of_bare (by decide : Text.Bare ['\n']))
  have hline : Inert [] ('[' :: title.toList ++ "]\n".toList) :=
    .of_bare (by simp [htitle, markup])
  exact hline.append hclosed

theorem inert_text (book : Option AddressBook) (x : Snapshot) :
    Inert ((x.stack.reverse.flatMap fun w => (WordClass.ofWord w).packedTexts) ++
      x.storage.entries.flatMap Renderer.slotTexts) (text ⟨x, ⟨.html, book⟩⟩) := by
  have htop : Inert [] (header ⟨x, ⟨.html, book⟩⟩ ++ ['\n']) :=
    .of_bare (by simp [markup])
  have hstack : Inert _ (panel "stack" _) :=
    inert_panel (by decide) (Renderer.inert_stack book x.stack)
  have hstorage : Inert _ (panel "storage" _) :=
    inert_panel (by decide) (Renderer.inert_storage book x.storage)
  have hbare : ∀ {title : String} {body : Text}, Text.Bare title.toList → body.Bare →
      Inert [] (panel title body) := fun htitle hbody => inert_panel htitle (.of_bare hbody)
  have h := (((((htop.append hstack).append hstorage).append
    (hbare (by decide : Text.Bare "memory".toList) (bare_memory ⟨x, ⟨.html, book⟩⟩))).append
    (hbare (by decide : Text.Bare "call data".toList) (bare_callData ⟨x, ⟨.html, book⟩⟩))).append
    (hbare (by decide : Text.Bare "levels".toList) (bare_levels ⟨x, ⟨.html, book⟩⟩))).append
    (hbare (by decide : Text.Bare "outcome".toList) (Outcome.bare_text (.ofSnapshot x)))
  simp only [List.nil_append, List.append_nil] at h
  exact h

theorem isInert (book : Option AddressBook) (x : Snapshot) : IsInert ⟨x, ⟨.html, book⟩⟩ where
  header := .of_bare (bare_header _)
  stack := Renderer.inert_stack book x.stack
  storage := Renderer.inert_storage book x.storage
  memory := .of_bare (bare_memory _)
  callData := .of_bare (bare_callData _)
  levels := fun _ hline => .of_bare (bare_of_mem_levels _ hline)
  outcome := .of_bare (Outcome.bare_text _)
  text := inert_text book x

end View

/-- No label of an address and no text in a word brings markup into what is rendered for HTML. -/
theorem Surface.html_inert (book : Option AddressBook) :
    (∀ v, Inert v.packedTexts (Renderer.value ⟨.html, book⟩ v)) ∧
    (∀ words, Inert (words.reverse.flatMap fun w => (WordClass.ofWord w).packedTexts)
      (Renderer.stack ⟨.html, book⟩ words)) ∧
    (∀ slots, Inert (slots.entries.flatMap Renderer.slotTexts)
      (Renderer.storage ⟨.html, book⟩ slots)) ∧
    ∀ x, View.IsInert ⟨x, ⟨.html, book⟩⟩ :=
  ⟨Renderer.inert_value book, Renderer.inert_stack book, Renderer.inert_storage book,
    View.isInert book⟩

end StepScope
