import StepScope.Proofs.Files
import StepScope.Proofs.Text

/-!
Files to which others are only added. Paths keep their meaning and files their bytes. Making folders adds
nothing but folders, and once it succeeds it succeeds again, with nothing left to make.
-/

namespace StepScope.Files

/-- The bytes of the file at a place. -/
def file? (f : Files) (p : Place) : Option Bytes :=
  match f.node? p with
  | some (.file bytes) => some bytes
  | _ => none

theorem file?_eq_some_iff {f : Files} {p : Place} {bytes : Bytes} :
    f.file? p = some bytes ↔ f.node? p = some (.file bytes) := by
  unfold file?
  split
  · simp_all
  · simp_all

theorem read?_eq_some_iff {f : Files} {path : Text} {bytes : Bytes} :
    f.read? path = some bytes ↔ ∃ p, f.place path = .ok p ∧ f.file? p = some bytes := by
  simp only [file?_eq_some_iff]
  unfold read? find?
  cases f.place path with
  | error obstacle => simp [Except.toOption]
  | ok p =>
    simp only [Except.toOption, Option.bind_some]
    split <;> simp_all

/-- Whatever stands at a place of the first files stands there in the second. -/
structure Grows (f f' : Files) : Prop where
  working : f'.working = f.working
  node? : ∀ {p node}, f.node? p = some node → f'.node? p = some node

namespace Grows

variable {f f' f'' : Files}

theorem refl (f : Files) : Grows f f := ⟨rfl, fun h => h⟩

theorem trans (h : Grows f f') (h' : Grows f' f'') : Grows f f'' :=
  ⟨h'.working.trans h.working, fun hp => h'.node? (h.node? hp)⟩

theorem keepsFolders (h : Grows f f') : KeepsFolders f f' := ⟨h.working, h.node?⟩

theorem put {p : Place} (hp : f.node? p = none) (node : Node) : Grows f (f.put p node) := by
  refine ⟨rfl, ?_⟩
  intro q node' hq
  have hne : q ≠ p := by
    rintro rfl
    rw [hp] at hq
    cases hq
  rw [node?_put_of_ne hne, hq]

theorem file? (h : Grows f f') {p : Place} {bytes : Bytes} (hp : f.file? p = some bytes) :
    f'.file? p = some bytes :=
  file?_eq_some_iff.2 (h.node? (file?_eq_some_iff.1 hp))

theorem find? (h : Grows f f') {path : Text} {node : Node} (hfind : f.find? path = some node) :
    f'.find? path = some node := by
  unfold Files.find? at hfind ⊢
  cases hplace : f.place path with
  | error obstacle =>
    rw [hplace] at hfind
    cases hfind
  | ok p =>
    rw [hplace] at hfind
    rw [h.keepsFolders.place hplace]
    exact h.node? hfind

theorem contains (h : Grows f f') {path : Text} (hpath : f.contains path = true) :
    f'.contains path = true := by
  obtain ⟨node, hfind⟩ := Option.isSome_iff_exists.1 hpath
  rw [Files.contains, h.find? hfind]
  rfl

theorem read? (h : Grows f f') {path : Text} {bytes : Bytes} (hread : f.read? path = some bytes) :
    f'.read? path = some bytes := by
  obtain ⟨p, hplace, hfile⟩ := read?_eq_some_iff.1 hread
  exact read?_eq_some_iff.2 ⟨p, h.keepsFolders.place hplace, h.file? hfile⟩

end Grows

/-- The second files have some folders more, and nothing else. -/
structure AddsFolders (f f' : Files) : Prop extends Grows f f' where
  file?_eq : f'.file? = f.file?

namespace AddsFolders

variable {f f' f'' : Files}

theorem refl (f : Files) : AddsFolders f f := ⟨.refl f, rfl⟩

theorem trans (h : AddsFolders f f') (h' : AddsFolders f' f'') : AddsFolders f f'' :=
  ⟨h.toGrows.trans h'.toGrows, h'.file?_eq.trans h.file?_eq⟩

theorem put {p : Place} (hp : f.node? p = none) : AddsFolders f (f.put p .folder) := by
  refine ⟨.put hp .folder, ?_⟩
  funext q
  by_cases hq : q = p
  · rw [hq, file?, file?, node?_put_self (isFolder_of_node?_eq_none hp), hp]
  · rw [file?, file?, node?_put_of_ne hq]

end AddsFolders

variable {refusals : Refusals}

theorem makeOne_ok {f f' : Files} {path : Text} (h : f.makeOne path refusals = .ok f') :
    AddsFolders f f' ∧ f'.find? path = some .folder := by
  obtain ⟨p, hplace, h⟩ := bind_eq_ok h
  split at h
  · cases h
  · rename_i hnone
    rw [Option.not_isSome_iff_eq_none] at hnone
    split at h
    · cases h
    · cases h
      have hfolder := isFolder_of_node?_eq_none hnone
      have hplace' := (keepsFolders_put hfolder .folder).place hplace
      refine ⟨.put hnone, ?_⟩
      rw [find?, hplace']
      exact node?_put_self hfolder .folder

/-- What is there already is noticed first, whatever is refused. -/
theorem makeOne_of_find? {f : Files} {path : Text} {node : Node} (h : f.find? path = some node) :
    f.makeOne path refusals = .error .there := by
  unfold find? at h
  unfold makeOne
  cases hplace : f.place path with
  | error obstacle =>
    rw [hplace] at h
    cases h
  | ok p =>
    rw [hplace] at h
    change f.node? p = some node at h
    change (if (f.node? p).isSome then Except.error Obstacle.there else _) = _
    rw [h]
    rfl

theorem addsFolders_settle (f : Files) (path : Text) :
    AddsFolders f (f.settle path (f.makeOne path refusals)).1 := by
  unfold settle
  split
  · rename_i f' hmade
    exact (makeOne_ok hmade).1
  · exact .refl f
  · exact .refl f

theorem find?_of_settle {f f' : Files} {path : Text}
    (h : f.settle path (f.makeOne path refusals) = (f', none)) : f'.find? path = some .folder := by
  unfold settle at h
  split at h
  · rename_i hmade
    cases h
    exact (makeOne_ok hmade).2
  · split at h
    · cases h
      assumption
    · cases h
  · cases h

theorem addsFolders_makeAll (f : Files) (paths : List Text) (refusals : Refusals) :
    AddsFolders f (f.makeAll paths refusals).1 := by
  induction paths with
  | nil => exact .refl f
  | cons path above ih =>
    rw [makeAll]
    split
    · split
      · rename_i f' habove
        rw [habove] at ih
        exact ih.trans (addsFolders_settle f' path)
      · exact ih
    · exact addsFolders_settle f path

theorem find?_of_makeAll {f f' : Files} {path : Text} {above : List Text}
    (h : f.makeAll (path :: above) refusals = (f', none)) : f'.find? path = some .folder := by
  rw [makeAll] at h
  split at h
  · split at h
    · exact find?_of_settle h
    · rename_i hstopped
      exact absurd h (hstopped f')
  · exact find?_of_settle h

theorem makeAll_of_find? {f : Files} {path : Text} {above : List Text}
    (h : f.find? path = some .folder) : f.makeAll (path :: above) refusals = (f, none) := by
  rw [makeAll, makeOne_of_find? h]
  change (f, if f.find? path = some .folder then none else some Obstacle.there) = (f, none)
  rw [if_pos h]

theorem addsFolders_makeFolder (f : Files) (path : Text) (refusals : Refusals) :
    AddsFolders f (f.makeFolder path refusals).1 :=
  addsFolders_makeAll f (upward path) refusals

/-- A folder that could be made once needs no making in files that have grown since, so nothing that is refused
by then stands in the way. -/
theorem makeFolder_again {f f' g : Files} {path : Text} {later : Refusals}
    (h : f.makeFolder path refusals = (f', none)) (hgrows : Grows f' g) :
    g.makeFolder path later = (g, none) := by
  unfold makeFolder at h ⊢
  cases hupward : upward path with
  | nil => rfl
  | cons path above =>
    rw [hupward] at h
    exact makeAll_of_find? (hgrows.find? (find?_of_makeAll h))

/-- Where nothing is, a write adds the one file. -/
theorem write?_of_not_contains {f f' : Files} {path : Text} {bytes : Bytes}
    (habsent : f.contains path = false) (h : f.write? path bytes refusals = some f') :
    ∃ p, f.place path = .ok p ∧ f.node? p = none ∧ f' = f.put p (.file bytes) := by
  obtain ⟨p, hplace, -, -, rfl⟩ := write?_eq_some_iff.1 h
  rw [contains, find?, hplace] at habsent
  exact ⟨p, hplace, Option.not_isSome_iff_eq_none.1 (Bool.eq_false_iff.1 habsent), rfl⟩

end StepScope.Files
