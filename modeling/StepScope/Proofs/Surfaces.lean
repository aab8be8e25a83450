import StepScope.Proofs.Bare
import StepScope.Proofs.Rendering

/-!
Both surfaces show the same. What is rendered for HTML reads, once its entities are taken for the
characters that they show, as what is rendered in plain text, be it a value, a dump, a panel or all
panels together.
-/

namespace StepScope

namespace Surface

theorem unescape_cons_of_ne {c : Char} (hc : c ≠ '&') (rest : Text) :
    unescape (c :: rest) = c :: unescape rest := by
  rw [unescape] <;> simp [hc]

/-- The first text reads as the second, whatever follows it. So no entity begins in the one and ends
behind it. -/
def Shows (html plain : Text) : Prop := ∀ rest, unescape (html ++ rest) = plain ++ unescape rest

namespace Shows

variable {s s' t t' : Text}

theorem unescape_eq (h : Shows s t) : unescape s = t := by
  simpa [unescape] using h []

theorem append (h : Shows s t) (h' : Shows s' t') : Shows (s ++ s') (t ++ t') := by
  intro rest
  rw [List.append_assoc, h, h', List.append_assoc]

theorem nil : Shows [] [] := fun _ => rfl

theorem cons {c : Char} (hc : c ≠ '&') (h : Shows s t) : Shows (c :: s) (c :: t) := by
  intro rest
  rw [List.cons_append, unescape_cons_of_ne hc, h, List.cons_append]

theorem flatMap {α : Type} {f g : α → Text} {xs : List α} (h : ∀ x ∈ xs, Shows (f x) (g x)) :
    Shows (xs.flatMap f) (xs.flatMap g) := by
  induction xs with
  | nil => exact nil
  | cons x xs ih =>
    obtain ⟨hx, hxs⟩ := List.forall_mem_cons.1 h
    rw [List.flatMap_cons, List.flatMap_cons]
    exact hx.append (ih hxs)

/-- Text without markup shows itself. -/
theorem of_bare (h : t.Bare) : Shows t t := by
  induction t with
  | nil => exact nil
  | cons c t ih =>
    obtain ⟨hc, ht⟩ := Text.bare_cons.1 h
    refine cons ?_ (ih ht)
    rintro rfl
    exact hc List.mem_cons_self

theorem of_escape (t : Text) : Shows (escape .html t) t := by
  rw [escape]
  induction t with
  | nil => exact nil
  | cons c t ih =>
    intro rest
    rw [List.flatMap_cons, List.append_assoc, unescape_entity_append, ih, List.cons_append]

theorem of_gap : Shows (gap .html) (gap .plain) := by
  intro rest
  rfl

end Shows

/-! No entity shows a line break, so a text ends in one exactly if what it shows does. -/

theorem unescape_eq_nil_iff {t : Text} : unescape t = [] ↔ t = [] := by
  fun_cases unescape t <;> simp

theorem getLast?_cons_of_ne {c d : Char} (hne : c ≠ d) (t : Text) :
    (c :: t).getLast? = some d ↔ t.getLast? = some d := by
  rw [List.getLast?_cons]
  cases t.getLast? <;> simp [hne]

theorem getLast?_unescape (t : Text) :
    (unescape t).getLast? = some '\n' ↔ t.getLast? = some '\n' := by
  fun_induction unescape t with
  | case1 => rfl
  | case2 s ih | case3 s ih | case4 s ih | case5 s ih | case6 s ih | case7 s ih =>
    simp (disch := decide) only [getLast?_cons_of_ne, ih]
  | case8 c s h₁ h₂ h₃ h₄ h₅ h₆ ih =>
    cases s with
    | nil => rfl
    | cons d s =>
      obtain ⟨e, u, hu⟩ := List.exists_cons_of_ne_nil (mt unescape_eq_nil_iff.1 (List.cons_ne_nil d s))
      rw [List.getLast?_cons_cons, hu, List.getLast?_cons_cons, ← hu, ih]

theorem Shows.closed {s t : Text} (h : Shows s t) : Shows (View.closed s) (View.closed t) := by
  have hlast : t.getLast? = some '\n' ↔ s.getLast? = some '\n' := by
    rw [← h.unescape_eq, getLast?_unescape]
  rw [View.closed, View.closed]
  split
  · rw [if_pos (hlast.2 ‹_›)]
    exact h
  · rw [if_neg fun hbreak => ‹¬ _› (hlast.1 hbreak)]
    exact h.append (.of_bare (by decide))

end Surface

open Surface (unescape Shows)

namespace Renderer

variable (book : Option AddressBook)

theorem shows_address (a : Address) :
    Shows (address ⟨.html, book⟩ a) (address ⟨.plain, book⟩ a) := by
  cases hname : nameOf? ⟨.html, book⟩ a with
  | none =>
    rw [address_of_nameless hname, address_of_nameless (r := ⟨.plain, book⟩) hname]
    exact .of_bare a.bare_text
  | some label =>
    rw [address_of_nameOf? hname, address_of_nameOf? (r := ⟨.plain, book⟩) hname]
    have hmark : Text.Bare "(0x".toList := by decide
    exact (((Shows.of_escape label).append (.of_bare hmark)).append (.of_bare a.bare_abridged)).append
      (.of_bare (by decide))

theorem shows_packed (p : PackedText) :
    Shows (packed ⟨.html, book⟩ p) (packed ⟨.plain, book⟩ p) := by
  rw [packed, packed]
  exact (Shows.cons (by decide) (.of_escape p.text)).append
    (.cons (by decide) (.of_bare (bare_counter p.increment)))

theorem shows_value (v : WordClass) : Shows (value ⟨.html, book⟩ v) (value ⟨.plain, book⟩ v) := by
  cases v with
  | unsigned n => exact .of_bare (bare_number (Text.bare_decimal _) n)
  | signed n => exact .of_bare (bare_number (Text.bare_signedDecimal _) _)
  | address a => exact shows_address book a
  | packed p => exact shows_packed book p
  | raw w => exact .of_bare (Hex.bare_ofBytes _)

theorem shows_stack (words : List Word) :
    Shows (stack ⟨.html, book⟩ words) (stack ⟨.plain, book⟩ words) :=
  Shows.flatMap fun w _ => (shows_value book (.ofWord w)).append (.of_bare (by decide))

theorem shows_storage (slots : Keyed Word Word) :
    Shows (storage ⟨.html, book⟩ slots) (storage ⟨.plain, book⟩ slots) := by
  rw [storage_eq, storage_eq]
  refine Shows.flatMap fun e _ => ?_
  obtain ⟨key, value⟩ := e
  exact ((Shows.cons (by decide) (shows_value book (.ofWord key))).append .of_gap).append
    (shows_value book (.ofWord value))

end Renderer

namespace View

/-- Every panel of the first view reads as that of the second, and so does the text of all panels. -/
structure ReadsAs (v u : View) : Prop where
  header : unescape v.header = u.header
  stack : unescape v.stack = u.stack
  storage : unescape v.storage = u.storage
  memory : unescape v.memory = u.memory
  callData : unescape v.callData = u.callData
  levels : v.levels.map unescape = u.levels
  outcome : unescape v.outcome.text = u.outcome.text
  text : unescape v.text = u.text

theorem shows_panel {title : String} {s t : Text} (htitle : Text.Bare title.toList)
    (h : Shows s t) : Shows (panel title s) (panel title t) :=
  (Shows.append (.of_bare (by simp [htitle, markup])) h.closed)

theorem shows_text (book : Option AddressBook) (x : Snapshot) :
    Shows (text ⟨x, ⟨.html, book⟩⟩) (text ⟨x, ⟨.plain, book⟩⟩) := by
  unfold text
  refine .append (.append (.append (.append (.append (.append (.append ?header ?closing) ?stack) ?storage)
    ?memory) ?callData) ?levels) ?outcome
  case header => exact .of_bare (bare_header _)
  case closing => exact .of_bare (by decide)
  case stack => exact shows_panel (by decide) (Renderer.shows_stack book x.stack)
  case storage => exact shows_panel (by decide) (Renderer.shows_storage book x.storage)
  case memory => exact shows_panel (by decide) (.of_bare (bare_memory _))
  case callData => exact shows_panel (by decide) (.of_bare (bare_callData _))
  case levels => exact shows_panel (by decide) (.of_bare (bare_levels _))
  case outcome => exact shows_panel (by decide) (.of_bare (Outcome.bare_text _))

theorem readsAs (book : Option AddressBook) (x : Snapshot) :
    ReadsAs ⟨x, ⟨.html, book⟩⟩ ⟨x, ⟨.plain, book⟩⟩ where
  header := (Shows.of_bare (bare_header _)).unescape_eq
  stack := (Renderer.shows_stack book x.stack).unescape_eq
  storage := (Renderer.shows_storage book x.storage).unescape_eq
  memory := (Shows.of_bare (bare_memory _)).unescape_eq
  callData := (Shows.of_bare (bare_callData _)).unescape_eq
  levels := by
    refine (List.map_congr_left fun line hline => ?_).trans (List.map_id _)
    exact (Shows.of_bare (bare_of_mem_levels _ hline)).unescape_eq
  outcome := (Shows.of_bare (Outcome.bare_text _)).unescape_eq
  text := (shows_text book x).unescape_eq

end View

/-- What is rendered for HTML shows what is rendered in plain text with the same address book or
without one. -/
theorem Surface.unescape_html (book : Option AddressBook) :
    (∀ v, unescape (Renderer.value ⟨.html, book⟩ v) = Renderer.value ⟨.plain, book⟩ v) ∧
    (∀ w, unescape (Renderer.word ⟨.html, book⟩ w) = Renderer.word ⟨.plain, book⟩ w) ∧
    (∀ words, unescape (Renderer.stack ⟨.html, book⟩ words) = Renderer.stack ⟨.plain, book⟩ words) ∧
    (∀ slots, unescape (Renderer.storage ⟨.html, book⟩ slots) =
      Renderer.storage ⟨.plain, book⟩ slots) ∧
    ∀ x, View.ReadsAs ⟨x, ⟨.html, book⟩⟩ ⟨x, ⟨.plain, book⟩⟩ :=
  ⟨fun v => (Renderer.shows_value book v).unescape_eq,
    fun w => (Renderer.shows_value book (.ofWord w)).unescape_eq,
    fun words => (Renderer.shows_stack book words).unescape_eq,
    fun slots => (Renderer.shows_storage book slots).unescape_eq,
    View.readsAs book⟩

end StepScope
