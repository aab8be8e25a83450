import StepScope.Proofs.Json

/-!
How deep the brackets of a JSON text are nested, found by going over the text once. A reader that may
open only so many brackets takes the texts that are nested no deeper and finds the others malformed.
-/

namespace StepScope.Json

open Snapshot (enclosed stringJson)

/-- What is known at a place in a text: the brackets that are open there, the greatest number of them
that were open so far, whether the place is inside a string, and whether it is behind a backslash. -/
structure Gauge where
  opened : Nat
  deepest : Nat
  inString : Bool
  escaped : Bool

def Gauge.step (g : Gauge) (c : Char) : Gauge :=
  if g.escaped then { g with escaped := false }
  else if g.inString then
    if c = '"' then { g with inString := false }
    else if c = '\\' then { g with escaped := true }
    else g
  else if c = '"' then { g with inString := true }
  else if c = '[' ∨ c = '\x7b' then
    { g with opened := g.opened + 1, deepest := max g.deepest (g.opened + 1) }
  else if c = ']' ∨ c = '\x7d' then { g with opened := g.opened - 1 }
  else g

/-- The greatest number of brackets that are open at a time. Those in strings do not count. -/
def nesting (t : Text) : Nat := (t.foldl Gauge.step ⟨0, 0, false, false⟩).deepest

/-- The text has this nesting and leaves no bracket and no string open, wherever it stands. -/
def Nests (t : Text) (n : Nat) : Prop :=
  ∀ opened deepest, opened ≤ deepest →
    t.foldl Gauge.step ⟨opened, deepest, false, false⟩ =
      ⟨opened, max deepest (opened + n), false, false⟩

namespace Nests

variable {s t : Text} {m n : Nat}

theorem nesting_eq (h : Nests t n) : nesting t = n := by
  rw [nesting, h 0 0 (Nat.le_refl 0), Nat.zero_add, Nat.zero_max]

theorem self (h : Nests t n) : Nests t (nesting t) := h.nesting_eq.symm ▸ h

theorem append (hs : Nests s m) (ht : Nests t n) : Nests (s ++ t) (max m n) := by
  intro opened deepest hle
  rw [List.foldl_append, hs opened deepest hle,
    ht opened _ (Nat.le_trans hle (Nat.le_max_left _ _))]
  simp only [Gauge.mk.injEq, and_true, true_and]
  omega

theorem of_forall (h : ∀ c ∈ t, c ∉ ['"', '[', ']', '\x7b', '\x7d']) : Nests t 0 := by
  intro opened deepest hle
  rw [Nat.add_zero, Nat.max_eq_left hle]
  induction t with
  | nil => rfl
  | cons c t ih =>
    obtain ⟨hc, ht⟩ := List.forall_mem_cons.1 h
    simp only [List.mem_cons, List.not_mem_nil, or_false, not_or] at hc
    have hstep : Gauge.step ⟨opened, deepest, false, false⟩ c = ⟨opened, deepest, false, false⟩ := by
      simp [Gauge.step, hc]
    rw [List.foldl_cons, hstep, ih ht]

theorem singleton {c : Char} (h : c ∉ ['"', '[', ']', '\x7b', '\x7d']) : Nests [c] 0 :=
  of_forall fun _ hmem => List.mem_singleton.1 hmem ▸ h

/-- In a string nothing counts. -/
theorem of_stringJson (h : ∀ c ∈ t, isPlain c = true) : Nests (stringJson t) 0 := by
  intro opened deepest hle
  have hinside : t.foldl Gauge.step ⟨opened, deepest, true, false⟩ = ⟨opened, deepest, true, false⟩ := by
    clear hle
    induction t with
    | nil => rfl
    | cons c t ih =>
      obtain ⟨hc, ht⟩ := List.forall_mem_cons.1 h
      simp only [isPlain, Bool.and_eq_true, decide_eq_true_eq] at hc
      have hstep : Gauge.step ⟨opened, deepest, true, false⟩ c = ⟨opened, deepest, true, false⟩ := by
        simp [Gauge.step, hc]
      rw [List.foldl_cons, hstep, ih ht]
  rw [Nat.add_zero, Nat.max_eq_left hle, stringJson, List.foldl_cons, List.foldl_append]
  change [_].foldl Gauge.step (t.foldl Gauge.step ⟨opened, deepest, true, false⟩) = _
  rw [hinside]
  rfl

theorem of_chain {ts : List Text} (h : ∀ t ∈ ts, Nests t (nesting t)) (first : Bool) :
    Nests (chain first ts) ((ts.map nesting).foldr max 0) := by
  induction ts generalizing first with
  | nil => exact of_forall (List.forall_mem_nil _)
  | cons t ts ih =>
    obtain ⟨ht, hts⟩ := List.forall_mem_cons.1 h
    cases first with
    | true => exact ht.append (ih hts false)
    | false =>
      have hcomma : Nests [','] 0 := singleton (by decide)
      have h := (hcomma.append ht).append (ih hts false)
      rwa [Nat.zero_max] at h

theorem of_enclosed {ts : List Text} {opening closing : Char}
    (hopening : opening = '[' ∨ opening = '\x7b') (hclosing : closing = ']' ∨ closing = '\x7d')
    (h : ∀ t ∈ ts, Nests t (nesting t)) :
    Nests (enclosed opening closing ts) ((ts.map nesting).foldr max 0 + 1) := by
  intro opened deepest hle
  have hopen : Gauge.step ⟨opened, deepest, false, false⟩ opening =
      ⟨opened + 1, max deepest (opened + 1), false, false⟩ := by
    rcases hopening with rfl | rfl <;> rfl
  have hclose : ∀ deepest, Gauge.step ⟨opened + 1, deepest, false, false⟩ closing =
      ⟨opened, deepest, false, false⟩ := by
    intro deepest
    rcases hclosing with rfl | rfl <;> rfl
  rw [enclosed_eq, List.foldl_cons, hopen, List.foldl_append,
    of_chain h true _ _ (Nat.le_max_right _ _), List.foldl_cons, hclose, List.foldl_nil]
  simp only [Gauge.mk.injEq, and_true, true_and]
  omega

theorem of_enclosed_flat {ts : List Text} {opening closing : Char}
    (hopening : opening = '[' ∨ opening = '\x7b') (hclosing : closing = ']' ∨ closing = '\x7d')
    (h : ∀ t ∈ ts, Nests t 0) : Nests (enclosed opening closing ts) 1 := by
  have hzero : (ts.map nesting).foldr max 0 = 0 := by
    induction ts with
    | nil => rfl
    | cons t ts ih =>
      obtain ⟨ht, hts⟩ := List.forall_mem_cons.1 h
      rw [List.map_cons, List.foldr_cons, ht.nesting_eq, ih hts]
      rfl
  have henclosed := of_enclosed hopening hclosing fun t ht => (h t ht).self
  rwa [hzero] at henclosed

end Nests

/-- Whether a text can be read where so many brackets may be opened. -/
def fits (depth : Nat) (t : Text) : Bool := nesting t ≤ depth

theorem Nests.fits_eq {t : Text} {n : Nat} (h : Nests t n) (depth : Nat) :
    fits depth t = decide (n ≤ depth) := by
  rw [fits, h.nesting_eq]

theorem all_fits (depth : Nat) (ts : List Text) :
    ts.all (fits depth) = decide ((ts.map nesting).foldr max 0 ≤ depth) := by
  induction ts with
  | nil => simp
  | cons t ts ih =>
    rw [List.all_cons, ih, fits, ← Bool.decide_and, List.map_cons, List.foldr_cons]
    simp only [Nat.max_le]

section Enclosed

variable {ts : List Text} {opening closing : Char}
  (hopening : opening = '[' ∨ opening = '\x7b') (hclosing : closing = ']' ∨ closing = '\x7d')
  (h : ∀ t ∈ ts, Nests t (nesting t))

include hopening hclosing h

theorem fits_zero_enclosed : fits 0 (enclosed opening closing ts) = false := by
  rw [(Nests.of_enclosed hopening hclosing h).fits_eq]
  simp

/-- The brackets around items leave one less for the items. -/
theorem fits_succ_enclosed (depth : Nat) :
    fits (depth + 1) (enclosed opening closing ts) = ts.all (fits depth) := by
  rw [(Nests.of_enclosed hopening hclosing h).fits_eq, all_fits]
  simp only [Nat.add_le_add_iff_right]

end Enclosed

/-- A reader that may open so many brackets takes `a` from the text, or finds the text malformed if it is
nested deeper. -/
def ReadsWithin {α : Type} (depth : Nat) (r : Reader α) (t : Text) (a : α) : Prop :=
  Reads r t (if fits depth t then .ok a else .error .malformed)

namespace ReadsWithin

variable {α β : Type} {depth : Nat} {r : Reader α} {t : Text} {a : α}

theorem of_reads (h : Reads r t (.ok a)) (hnests : Nests t 0) : ReadsWithin depth r t a := by
  rw [ReadsWithin, hnests.fits_eq]
  simpa using h

theorem map (h : ReadsWithin depth r t a) (f : α → β) :
    ReadsWithin depth (fun s => (r s).map fun (a, rest) => (f a, rest)) t (f a) := by
  intro rest hrest
  simp only [h rest hrest]
  cases fits depth t <;> rfl

end ReadsWithin

end StepScope.Json
