import StepScope.Word

/-!
Tables kept in ascending order of their keys, each key at most once. The order is part of what a
table is, so two tables with the same entries are equal.
-/

namespace StepScope

/-- Keys with a strict total order. -/
class KeyOrder (κ : Type) where
  before : κ → κ → Bool
  irrefl : ∀ a, before a a = false
  trans : ∀ a b c, before a b = true → before b c = true → before a c = true
  connected : ∀ a b, before a b = false → before b a = false → a = b

instance (width : Nat) : KeyOrder (BitVec width) where
  before a b := a.toNat < b.toNat
  irrefl _ := decide_eq_false (Nat.lt_irrefl _)
  trans _ _ _ hab hbc :=
    decide_eq_true (Nat.lt_trans (of_decide_eq_true hab) (of_decide_eq_true hbc))
  connected _ _ hab hba :=
    BitVec.eq_of_toNat_eq (Nat.le_antisymm (Nat.le_of_not_lt (of_decide_eq_false hba))
      (Nat.le_of_not_lt (of_decide_eq_false hab)))

namespace Text

/-- The order of texts by the codes of their characters, which is that of their UTF-8 bytes. -/
def before : Text → Text → Bool
  | _, [] => false
  | [], _ :: _ => true
  | a :: s, b :: t => a.toNat < b.toNat || (a = b && before s t)

theorem before_irrefl (s : Text) : before s s = false := by
  induction s with
  | nil => rfl
  | cons a s ih => simp [before, ih]

theorem before_trans (s t u : Text) (hst : before s t = true) (htu : before t u = true) :
    before s u = true := by
  induction s generalizing t u with
  | nil =>
    cases t with
    | nil => cases hst
    | cons b t => cases u with
      | nil => cases htu
      | cons c u => rfl
  | cons a s ih =>
    cases t with
    | nil => cases hst
    | cons b t =>
      cases u with
      | nil => cases htu
      | cons c u =>
        simp only [before, Bool.or_eq_true, Bool.and_eq_true, decide_eq_true_eq] at hst htu ⊢
        rcases hst with hab | ⟨rfl, hst⟩
        · rcases htu with hbc | ⟨rfl, _⟩
          · exact .inl (Nat.lt_trans hab hbc)
          · exact .inl hab
        · rcases htu with hbc | ⟨rfl, htu⟩
          · exact .inl hbc
          · exact .inr ⟨rfl, ih t u hst htu⟩

theorem before_connected (s t : Text) (hst : before s t = false) (hts : before t s = false) :
    s = t := by
  induction s generalizing t with
  | nil =>
    cases t with
    | nil => rfl
    | cons b t => cases hst
  | cons a s ih =>
    cases t with
    | nil => cases hts
    | cons b t =>
      simp only [before, Bool.or_eq_false_iff, decide_eq_false_iff_not] at hst hts
      have hab : a = b := Char.toNat_inj.1 (by omega)
      subst hab
      simp only [decide_true, Bool.true_and] at hst hts
      rw [ih t hst.2 hts.2]

end Text

instance : KeyOrder Text where
  before := Text.before
  irrefl := Text.before_irrefl
  trans := Text.before_trans
  connected := Text.before_connected

/-- A table from keys to values. -/
structure Keyed (κ β : Type) [KeyOrder κ] where
  entries : List (κ × β)
  ascending : entries.Pairwise fun a b => KeyOrder.before a.1 b.1 = true
  deriving DecidableEq

namespace Keyed

variable {κ β : Type} [KeyOrder κ]

open KeyOrder (before)

/-- Puts a value at its place; it takes that of an equal key. -/
def place (key : κ) (value : β) : List (κ × β) → List (κ × β)
  | [] => [(key, value)]
  | e :: rest =>
    if before key e.1 then (key, value) :: e :: rest
    else if before e.1 key then e :: place key value rest
    else (key, value) :: rest

theorem mem_place {key : κ} {value : β} {entries : List (κ × β)} {x : κ × β}
    (h : x ∈ place key value entries) : x = (key, value) ∨ x ∈ entries := by
  induction entries with
  | nil => exact .inl (List.mem_singleton.1 h)
  | cons e rest ih =>
    unfold place at h
    split at h
    · exact List.mem_cons.1 h
    · split at h
      · rcases List.mem_cons.1 h with rfl | h
        · exact .inr List.mem_cons_self
        · exact (ih h).imp id (List.mem_cons_of_mem _)
      · exact (List.mem_cons.1 h).imp id (List.mem_cons_of_mem _)

theorem ascending_place (key : κ) (value : β) {entries : List (κ × β)}
    (h : entries.Pairwise fun a b => before a.1 b.1 = true) :
    (place key value entries).Pairwise fun a b => before a.1 b.1 = true := by
  induction entries with
  | nil => exact List.pairwise_singleton _ _
  | cons e rest ih =>
    obtain ⟨he, hrest⟩ := List.pairwise_cons.1 h
    unfold place
    split
    · rename_i hk
      refine List.pairwise_cons.2 ⟨fun x hx => ?_, h⟩
      rcases List.mem_cons.1 hx with rfl | hx
      · exact hk
      · exact KeyOrder.trans _ _ _ hk (he x hx)
    · split
      · rename_i hk
        refine List.pairwise_cons.2 ⟨fun x hx => ?_, ih hrest⟩
        rcases mem_place hx with rfl | hx
        · exact hk
        · exact he x hx
      · rename_i hk hk'
        have hke := KeyOrder.connected key e.1 (Bool.eq_false_iff.2 hk) (Bool.eq_false_iff.2 hk')
        subst hke
        exact List.pairwise_cons.2 ⟨he, hrest⟩

/-- The table without entries. -/
def empty : Keyed κ β := ⟨[], .nil⟩

instance : Inhabited (Keyed κ β) := ⟨empty⟩

def insert (t : Keyed κ β) (key : κ) (value : β) : Keyed κ β :=
  ⟨place key value t.entries, ascending_place key value t.ascending⟩

/-- The table of a list of entries, where a later one replaces an earlier one of the same key. -/
def ofList (entries : List (κ × β)) : Keyed κ β :=
  entries.foldl (fun t e => t.insert e.1 e.2) empty

variable [DecidableEq κ]

def erase (t : Keyed κ β) (key : κ) : Keyed κ β :=
  ⟨t.entries.filter fun e => e.1 ≠ key, t.ascending.filter _⟩

def get? (t : Keyed κ β) (key : κ) : Option β :=
  (t.entries.find? fun e => e.1 = key).map (·.2)

end Keyed

end StepScope
