import StepScope.Text

/-!
The displays that rendered text is made for, and the escaping that each of them needs.
-/

namespace StepScope

/-- Where rendered text ends up. -/
inductive Surface
  /-- Plain text, shown as it is. -/
  | plain
  /-- A display that reads HTML. -/
  | html
  deriving DecidableEq, Repr, Inhabited

namespace Surface

/-- The markup characters as entities, every other character as it is. -/
def entity (c : Char) : Text :=
  if c = '&' then "&amp;".toList
  else if c = '<' then "&lt;".toList
  else if c = '>' then "&gt;".toList
  else if c = '"' then "&quot;".toList
  else if c = '\'' then "&#39;".toList
  else [c]

/-- A text as the surface wants it. -/
def escape : Surface → Text → Text
  | .plain, t => t
  | .html, t => t.flatMap entity

/-- What a text with entities shows: those of the markup characters, and that of a space. -/
def unescape : Text → Text
  | [] => []
  | '&' :: 'a' :: 'm' :: 'p' :: ';' :: s => '&' :: unescape s
  | '&' :: 'l' :: 't' :: ';' :: s => '<' :: unescape s
  | '&' :: 'g' :: 't' :: ';' :: s => '>' :: unescape s
  | '&' :: 'q' :: 'u' :: 'o' :: 't' :: ';' :: s => '"' :: unescape s
  | '&' :: '#' :: '3' :: '9' :: ';' :: s => '\'' :: unescape s
  | '&' :: 'n' :: 'b' :: 's' :: 'p' :: ';' :: s => ' ' :: unescape s
  | c :: s => c :: unescape s

theorem unescape_entity_append (c : Char) (s : Text) :
    unescape (entity c ++ s) = c :: unescape s := by
  unfold entity
  split
  · simp_all [unescape]
  · split
    · simp_all [unescape]
    · split
      · simp_all [unescape]
      · split
        · simp_all [unescape]
        · split
          · simp_all [unescape]
          · rename_i h _ _ _ _
            rw [List.singleton_append, unescape] <;> simp [h]

/-- The gap between a storage key and its value. -/
def gap : Surface → Text
  | .plain => "    ".toList
  | .html => "&nbsp;&nbsp;&nbsp;&nbsp;".toList

def name : Surface → Text
  | .plain => "plain".toList
  | .html => "html".toList

def ofName? (t : Text) : Option Surface :=
  if t = Surface.plain.name then some .plain
  else if t = Surface.html.name then some .html
  else none

theorem ofName?_name (s : Surface) : ofName? s.name = some s := by
  cases s <;> rfl

end Surface

end StepScope
