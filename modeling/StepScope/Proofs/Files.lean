import StepScope.Files

/-!
A file that was written is read back, under the same path. The path means the same place afterwards: a
path goes through folders only, and no folder is written over.
-/

namespace StepScope.Files

theorem node?_put_of_ne {f : Files} {p q : Place} (h : q ≠ p) (node : Node) :
    (f.put p node).node? q = f.node? q := by
  have hfilter : (f.nodes.filter fun e => e.1 ≠ p).find? (fun e => e.1 = q) =
      f.nodes.find? fun e => e.1 = q := by
    rw [List.find?_filter]
    congr 1
    funext e
    by_cases heq : e.1 = q
    · simp [heq, h]
    · simp [heq]
  simp only [node?, put, List.find?_cons, h.symm, decide_false, hfilter]

theorem node?_put_self {f : Files} {p : Place} (h : f.isFolder p = false) (node : Node) :
    (f.put p node).node? p = some node := by
  have hworking : ¬ p <+: f.working := by
    intro hprefix
    rw [isFolder, node?, if_pos hprefix] at h
    cases h
  simp only [node?, put, List.find?_cons, decide_true, Option.map_some]
  rw [if_neg hworking]

theorem isFolder_of_node?_eq_none {f : Files} {p : Place} (h : f.node? p = none) : f.isFolder p = false := by
  rw [isFolder, h]
  rfl

/-- Every folder of the first files is one of the second. -/
structure KeepsFolders (f f' : Files) : Prop where
  working : f'.working = f.working
  folder : ∀ {p}, f.node? p = some .folder → f'.node? p = some .folder

theorem keepsFolders_put {f : Files} {p : Place} (hp : f.isFolder p = false) (node : Node) :
    KeepsFolders f (f.put p node) := by
  refine ⟨rfl, ?_⟩
  intro q hq
  have hne : q ≠ p := by
    rintro rfl
    rw [isFolder, hq] at hp
    cases hp
  rw [node?_put_of_ne hne, hq]

namespace KeepsFolders

variable {f f' : Files}

theorem enter (h : KeepsFolders f f') {p q : Place} {part : Text} (henter : f.enter p part = .ok q) :
    f'.enter p part = .ok q := by
  have hfolder : f.node? p = some .folder := by
    unfold Files.enter at henter
    split at henter
    · cases henter
    · cases henter
    · assumption
  rw [← henter, Files.enter, Files.enter, hfolder, h.folder hfolder]

theorem foldlM_enter (h : KeepsFolders f f') {p q : Place} {parts : List Text}
    (hparts : parts.foldlM f.enter p = .ok q) : parts.foldlM f'.enter p = .ok q := by
  induction parts generalizing p with
  | nil => exact hparts
  | cons part parts ih =>
    rw [List.foldlM_cons] at hparts ⊢
    cases henter : f.enter p part with
    | error obstacle =>
      rw [henter] at hparts
      cases hparts
    | ok p' =>
      rw [henter] at hparts
      rw [h.enter henter]
      exact ih hparts

theorem place (h : KeepsFolders f f') {path : Text} {p : Place} (hplace : f.place path = .ok p) :
    f'.place path = .ok p := by
  have hstart : f'.start path = f.start path := by
    unfold start
    rw [h.working]
  unfold Files.place at hplace ⊢
  rw [hstart]
  cases hfrom : f.start path with
  | error obstacle =>
    rw [hfrom] at hplace
    cases hplace
  | ok q =>
    rw [hfrom] at hplace
    exact h.foldlM_enter hplace

end KeepsFolders

/-- A write goes through where the path leads to a place in a folder that is there, no folder stands at the
place, and it is not refused. -/
theorem write?_eq_some_iff {f f' : Files} {path : Text} {bytes : Bytes} {refusals : Refusals} :
    f.write? path bytes refusals = some f' ↔
      ∃ p, f.place path = .ok p ∧ f.isFolder p = false ∧ refusals p = none ∧ f' = f.put p (.file bytes) := by
  unfold write?
  constructor
  · intro h
    split at h
    · rename_i p hplace
      split at h
      · cases h
      · rename_i hgood
        cases h
        rw [Bool.not_eq_true, Bool.or_eq_false_iff, Option.isSome_eq_false_iff, Option.isNone_iff_eq_none] at hgood
        exact ⟨p, hplace, hgood.1, hgood.2, rfl⟩
    · cases h
  · rintro ⟨p, hplace, hfolder, hrefused, rfl⟩
    rw [hplace]
    simp only [hfolder, hrefused, Option.isSome_none, Bool.or_self, Bool.false_eq_true, if_false]

/-- What is written under a path is read under it. -/
theorem read?_of_write? {f f' : Files} {path : Text} {bytes : Bytes} {refusals : Refusals}
    (h : f.write? path bytes refusals = some f') : f'.read? path = some bytes := by
  obtain ⟨p, hplace, hfolder, -, rfl⟩ := write?_eq_some_iff.1 h
  have hnode := node?_put_self hfolder (.file bytes)
  have hplace' := (keepsFolders_put hfolder (.file bytes)).place hplace
  simp only [read?, find?, hplace', Except.toOption, Option.bind_some, hnode]

end StepScope.Files
