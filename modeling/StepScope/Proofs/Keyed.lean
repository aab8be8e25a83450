import Mathlib.Data.List.Induction
import Mathlib.Data.List.Nodup
import StepScope.Keyed

/-!
A table is built again from its own entries in any order, and no key is in it twice. A table of entries as
they come has every key of theirs with the value that was given for it last, and however such entries are
gone through and sorted, they are the entries of the table.
-/

namespace StepScope.Keyed

variable {κ β : Type} [KeyOrder κ]

open KeyOrder (before)

theorem before_asymm {a b : κ} (h : before a b = true) : before b a = false := by
  cases hback : before b a with
  | false => rfl
  | true =>
    have hself := KeyOrder.trans a b a h hback
    rw [KeyOrder.irrefl a] at hself
    cases hself

theorem ne_of_before {a b : κ} (h : before a b = true) : a ≠ b := by
  rintro rfl
  rw [KeyOrder.irrefl a] at h
  cases h

theorem keys_nodup (t : Keyed κ β) : (t.entries.map Prod.fst).Nodup :=
  List.pairwise_map.2 (t.ascending.imp ne_of_before)

/-- The order of the keys leaves no choice of the order of the entries. -/
theorem eq_of_perm {s t : Keyed κ β} (h : s.entries.Perm t.entries) : s = t := by
  have hentries : s.entries = t.entries := by
    refine h.eq_of_pairwise (fun a b _ _ hab hba => ?_) s.ascending t.ascending
    rw [before_asymm hab] at hba
    cases hba
  cases s
  cases t
  cases hentries
  rfl

theorem place_perm {key : κ} {entries : List (κ × β)} (h : key ∉ entries.map Prod.fst) (value : β) :
    (place key value entries).Perm ((key, value) :: entries) := by
  induction entries with
  | nil => exact .refl _
  | cons e rest ih =>
    rw [List.map_cons, List.mem_cons, not_or] at h
    unfold place
    split
    · exact .refl _
    · rename_i hkey
      split
      · exact ((ih h.2).cons e).trans (.swap _ _ _)
      · rename_i hkey'
        have heq := KeyOrder.connected key e.1 (Bool.eq_false_iff.2 hkey) (Bool.eq_false_iff.2 hkey')
        exact absurd heq h.1

theorem foldl_insert_perm {t : Keyed κ β} {entries : List (κ × β)}
    (h : ((t.entries ++ entries).map Prod.fst).Nodup) :
    (entries.foldl (fun t e => t.insert e.1 e.2) t).entries.Perm (t.entries ++ entries) := by
  induction entries generalizing t with
  | nil => rw [List.append_nil, List.foldl_nil]
  | cons e rest ih =>
    have hmiddle : (t.entries ++ e :: rest).Perm (e :: (t.entries ++ rest)) := List.perm_middle
    have hnodup := (hmiddle.map Prod.fst).nodup_iff.1 h
    have hnew : e.1 ∉ t.entries.map Prod.fst := by
      rw [List.map_cons, List.nodup_cons, List.map_append, List.mem_append, not_or] at hnodup
      exact hnodup.1.1
    have hinsert : ((t.insert e.1 e.2).entries ++ rest).Perm (e :: (t.entries ++ rest)) :=
      (place_perm hnew e.2).append_right rest
    rw [List.foldl_cons]
    exact (ih ((hinsert.map Prod.fst).nodup_iff.2 hnodup)).trans (hinsert.trans hmiddle.symm)

/-- The entries of a table make up the table, in whatever order they come. -/
theorem ofList_of_perm {t : Keyed κ β} {entries : List (κ × β)} (h : entries.Perm t.entries) :
    ofList entries = t :=
  eq_of_perm ((foldl_insert_perm (t := empty) ((h.map Prod.fst).nodup_iff.2 t.keys_nodup)).trans h)

@[simp] theorem ofList_entries (t : Keyed κ β) : ofList t.entries = t := ofList_of_perm (.refl _)

theorem entries_nodup (t : Keyed κ β) : t.entries.Nodup := t.keys_nodup.of_map Prod.fst

/-- Sorting by the keys, which may do as it likes with equal ones, gives the entries of the table: there are
no equal ones. -/
theorem eq_entries_of_sorted {t : Keyed κ β} {sorted : List (κ × β)} (hperm : sorted.Perm t.entries)
    (hsorted : sorted.Pairwise fun a b => before b.1 a.1 = false) : sorted = t.entries := by
  refine hperm.eq_of_pairwise (fun a b ha hb hab hba => ?_) hsorted (t.ascending.imp before_asymm)
  exact List.inj_on_of_nodup_map t.keys_nodup (hperm.mem_iff.1 ha) hb (KeyOrder.connected _ _ hba hab)

/-- A key behind all others gets its place at the end. -/
theorem place_of_last {key : κ} {entries : List (κ × β)} (h : ∀ e ∈ entries, before e.1 key = true)
    (value : β) : place key value entries = entries ++ [(key, value)] := by
  induction entries with
  | nil => rfl
  | cons e rest ih =>
    have he := h e List.mem_cons_self
    rw [place, before_asymm he, he, ih fun e he => h e (List.mem_cons_of_mem _ he)]
    rfl

theorem entries_insert_of_last {t : Keyed κ β} {key : κ} (h : ∀ e ∈ t.entries, before e.1 key = true)
    (value : β) : (t.insert key value).entries = t.entries ++ [(key, value)] := place_of_last h value

/-! The value that was given last -/

/-- Of the entries of the key, the last gives it this value. -/
def Last (given : List (κ × β)) (key : κ) (value : β) : Prop :=
  ∃ front back, given = front ++ (key, value) :: back ∧ key ∉ back.map Prod.fst

omit [KeyOrder κ] in
theorem last_append_singleton {given : List (κ × β)} {e : κ × β} {key : κ} {value : β} :
    Last (given ++ [e]) key value ↔ e = (key, value) ∨ Last given key value ∧ e.1 ≠ key := by
  constructor
  · rintro ⟨front, back, h, hback⟩
    rcases List.eq_nil_or_concat' back with rfl | ⟨back, e', rfl⟩
    · exact .inl (List.singleton_inj.1 (List.append_inj' h rfl).2)
    · rw [← List.cons_append, ← List.append_assoc] at h
      obtain ⟨hgiven, he⟩ := List.append_inj' h rfl
      obtain rfl := List.singleton_inj.1 he
      rw [List.map_append, List.mem_append, not_or] at hback
      refine .inr ⟨⟨front, back, hgiven, hback.1⟩, fun hkey => hback.2 ?_⟩
      rw [← hkey]
      exact List.mem_singleton_self _
  · rintro (rfl | ⟨⟨front, back, rfl, hback⟩, hkey⟩)
    · exact ⟨given, [], rfl, List.not_mem_nil⟩
    · refine ⟨front, back ++ [e], by rw [List.append_assoc, List.cons_append], ?_⟩
      rw [List.map_append, List.mem_append, not_or]
      exact ⟨hback, fun h => hkey (List.mem_singleton.1 h).symm⟩

theorem mem_place_iff {key : κ} {value : β} {entries : List (κ × β)} {x : κ × β}
    (h : entries.Pairwise fun a b => before a.1 b.1 = true) :
    x ∈ place key value entries ↔ x = (key, value) ∨ x ∈ entries ∧ x.1 ≠ key := by
  induction entries with
  | nil => simp [place]
  | cons e rest ih =>
    obtain ⟨he, hrest⟩ := List.pairwise_cons.1 h
    unfold place
    split
    · -- The key is in front of all that there are.
      rename_i hkey
      have hbehind : ∀ y ∈ e :: rest, y.1 ≠ key := by
        refine List.forall_mem_cons.2 ⟨(ne_of_before hkey).symm, fun y hy => ?_⟩
        exact (ne_of_before (KeyOrder.trans _ _ _ hkey (he y hy))).symm
      rw [List.mem_cons]
      exact or_congr_right ⟨fun hx => ⟨hx, hbehind x hx⟩, And.left⟩
    · split
      · rename_i hkey
        rw [List.mem_cons, ih hrest, List.mem_cons]
        constructor
        · rintro (rfl | rfl | ⟨hx, hne⟩)
          · exact .inr ⟨.inl rfl, ne_of_before hkey⟩
          · exact .inl rfl
          · exact .inr ⟨.inr hx, hne⟩
        · rintro (rfl | ⟨rfl | hx, hne⟩)
          · exact .inr (.inl rfl)
          · exact .inl rfl
          · exact .inr (.inr ⟨hx, hne⟩)
      · rename_i hkey hkey'
        obtain rfl := KeyOrder.connected key e.1 (Bool.eq_false_iff.2 hkey) (Bool.eq_false_iff.2 hkey')
        rw [List.mem_cons, List.mem_cons]
        refine or_congr_right ⟨fun hx => ⟨.inr hx, (ne_of_before (he x hx)).symm⟩, ?_⟩
        rintro ⟨rfl | hx, hne⟩
        · exact absurd rfl hne
        · exact hx

theorem ofList_append_singleton (given : List (κ × β)) (e : κ × β) :
    ofList (given ++ [e]) = (ofList given).insert e.1 e.2 := by
  rw [ofList, List.foldl_append]
  rfl

/-- A table has the key with the value that was given for it last. -/
theorem mem_ofList_iff {given : List (κ × β)} {key : κ} {value : β} :
    (key, value) ∈ (ofList given).entries ↔ Last given key value := by
  induction given using List.reverseRecOn with
  | nil =>
    refine ⟨fun h => absurd h List.not_mem_nil, ?_⟩
    rintro ⟨front, back, h, _⟩
    exact absurd h.symm (List.append_ne_nil_of_right_ne_nil _ (List.cons_ne_nil _ _))
  | append_singleton given e ih =>
    rw [ofList_append_singleton, last_append_singleton, ← ih]
    refine (mem_place_iff (ofList given).ascending).trans (or_congr ?_ (and_congr_right fun _ => ne_comm))
    exact eq_comm

/-- Entries with the same values at last make up the same table. -/
theorem ofList_congr {given given' : List (κ × β)}
    (h : ∀ key value, Last given key value ↔ Last given' key value) : ofList given = ofList given' := by
  refine eq_of_perm ((List.perm_ext_iff_of_nodup (entries_nodup _) (entries_nodup _)).2 fun e => ?_)
  exact mem_ofList_iff.trans ((h e.1 e.2).trans mem_ofList_iff.symm)

/-- What a key is looked up as is its entry. -/
theorem get?_eq_some_iff [DecidableEq κ] {t : Keyed κ β} {key : κ} {value : β} :
    t.get? key = some value ↔ (key, value) ∈ t.entries := by
  rw [get?, Option.map_eq_some_iff]
  constructor
  · rintro ⟨e, he, rfl⟩
    have hkey := List.find?_some he
    exact of_decide_eq_true hkey ▸ List.mem_of_find?_eq_some he
  · intro h
    cases hfind : t.entries.find? (fun e => e.1 = key) with
    | none => exact absurd (List.find?_eq_none.1 hfind _ h) (by simp)
    | some e =>
      have hkey := List.find?_some hfind
      have heq := List.inj_on_of_nodup_map t.keys_nodup (List.mem_of_find?_eq_some hfind) h
        (of_decide_eq_true hkey)
      exact ⟨e, rfl, congrArg Prod.snd heq⟩

/-- A way to go through the table of the entries that were given: every key of theirs once, with the value
that was given for it last. -/
structure Enumerates (given entries : List (κ × β)) : Prop where
  once : (entries.map Prod.fst).Nodup
  mem_iff : ∀ key value, (key, value) ∈ entries ↔ Last given key value

theorem enumerates_ofList (given : List (κ × β)) : Enumerates given (ofList given).entries :=
  ⟨keys_nodup _, fun _ _ => mem_ofList_iff⟩

theorem Enumerates.perm {given entries : List (κ × β)} (h : Enumerates given entries) :
    entries.Perm (ofList given).entries := by
  refine (List.perm_ext_iff_of_nodup (h.once.of_map Prod.fst) (entries_nodup _)).2 fun e => ?_
  exact (h.mem_iff e.1 e.2).trans mem_ofList_iff.symm

end StepScope.Keyed
