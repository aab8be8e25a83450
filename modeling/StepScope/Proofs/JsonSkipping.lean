import StepScope.Json.Skip
import StepScope.Proofs.JsonSequences

/-!
How far a value is passed over does not depend on what follows it.
-/

namespace StepScope.Json

theorem skipEscape_append {s u : Text} (h : skipEscape s = .ok u) (rest : Text) :
    skipEscape (s ++ rest) = .ok (u ++ rest) := by
  cases s with
  | nil => cases h
  | cons c s =>
    rw [skipEscape] at h
    rw [List.cons_append, skipEscape]
    split at h
    · rename_i hescaped
      cases h
      rw [if_pos hescaped]
    · rename_i hescaped
      rw [if_neg hescaped]
      split at h
      · rename_i hc
        obtain ⟨⟨n, u'⟩, hunit, hu⟩ := map_eq_ok h
        cases hu
        rw [if_pos hc, readUnit_append hunit]
        rfl
      · cases h

theorem skipText_append {s u : Text} (h : skipText s = .ok u) (rest : Text) :
    u.length < s.length ∧ skipText (s ++ rest) = .ok (u ++ rest) := by
  fun_induction skipText s with
  | case1 => cases h
  | case2 s =>
    cases h
    refine ⟨Nat.lt_succ_self _, ?_⟩
    rw [List.cons_append, skipText, if_pos rfl]
  | case3 => cases h
  | case4 s s' hescape hlength hne ih =>
    obtain ⟨hlength', happend⟩ := ih h
    refine ⟨Nat.lt_succ_of_lt (Nat.lt_trans hlength' hlength), ?_⟩
    rw [List.cons_append, skipText_backslash (skipEscape_append hescape rest), happend]
  | case5 => cases h
  | case6 c s hquote hbackslash hc ih =>
    obtain ⟨hlength', happend⟩ := ih h
    refine ⟨Nat.lt_succ_of_lt hlength', ?_⟩
    rw [List.cons_append, skipText, if_neg hquote, if_neg hbackslash, if_neg hc, happend]

theorem skipNumber_append {s u : Text} (h : skipNumber s = .ok u) :
    u.length < s.length ∧ ∀ {rest}, (u = [] → Ends rest) → skipNumber (s ++ rest) = .ok (u ++ rest) := by
  unfold skipNumber at h
  split at h
  · rename_i literal u' hread
    cases h
    refine ⟨length_readLiteral hread, ?_⟩
    intro rest hends
    have hread' : readLiteral (s ++ rest) = .ok (literal, u ++ rest) :=
      local_readLiteral.append 0 hread hends (Nat.lt_succ_self _)
    rw [skipNumber, hread']
  · cases h

theorem skipKey_append {s u : Text} (h : skipKey s = .ok u) (rest : Text) :
    u.length ≤ s.length ∧ skipKey (s ++ rest) = .ok (u ++ rest) := by
  have hle := length_skipBlank s
  unfold skipKey at h
  split at h
  · cases h
  · rename_i c s' heq
    rw [heq, List.length_cons] at hle
    rw [skipKey, skipBlank_append_of_cons heq]
    split at h
    · rename_i hc
      obtain ⟨s'', hskip, h⟩ := bind_eq_ok h
      obtain ⟨hlength, happend⟩ := skipText_append hskip rest
      have hcolon : readColon s'' = .ok u := h
      obtain ⟨hlength', happend'⟩ := readColon_append hcolon rest
      refine ⟨by omega, ?_⟩
      simp only [if_pos hc, happend]
      exact happend'
    · cases h

theorem skipToValue_append {bracket : Bracket} {s u : Text} (h : skipToValue bracket s = .ok u)
    (rest : Text) : u.length ≤ s.length ∧ skipToValue bracket (s ++ rest) = .ok (u ++ rest) := by
  cases bracket with
  | array =>
    cases h
    exact ⟨Nat.le_refl _, rfl⟩
  | object => exact skipKey_append h rest

/-- How many steps are enough to pass over what is left of a value. -/
def stepsFrom (place : Place) (s : Text) : Nat := 2 * s.length + if place = .opened then 1 else 0

theorem stepsFrom_append (place : Place) (s rest : Text) :
    stepsFrom place (s ++ rest) = stepsFrom place s + 2 * rest.length := by
  simp only [stepsFrom, List.length_append]
  omega

/-- The rest of a value is passed over up to the same place, whatever follows. -/
structure Skips (place : Place) (stack : List Bracket) (s u : Text) : Prop where
  length : u.length ≤ s.length
  append : ∀ {limit rest}, (u = [] → Ends rest) → stepsFrom place (s ++ rest) < limit →
    skip limit place stack (s ++ rest) = .ok (u ++ rest)

theorem Skips.step {place place' : Place} {stack stack' : List Bracket} {s s' u : Text}
    (h : Skips place' stack' s' u) (hlength : s'.length ≤ s.length)
    (hsteps : stepsFrom place' s' < stepsFrom place s)
    (hskip : ∀ {limit rest}, (s' = [] → Ends rest) →
      skip (limit + 1) place stack (s ++ rest) = skip limit place' stack' (s' ++ rest)) :
    Skips place stack s u := by
  refine ⟨Nat.le_trans h.length hlength, ?_⟩
  intro limit rest hends hlimit
  obtain ⟨limit, rfl⟩ := Nat.exists_eq_succ_of_ne_zero (Nat.ne_zero_of_lt hlimit)
  rw [hskip (ends_of_length_le h.length hends)]
  apply h.append hends
  rw [stepsFrom_append] at hlimit ⊢
  omega

theorem skips_end {place : Place} (hplace : place ≠ .value) (u : Text) : Skips place [] u u := by
  refine ⟨Nat.le_refl _, ?_⟩
  intro limit rest _ hlimit
  obtain ⟨limit, rfl⟩ := Nat.exists_eq_succ_of_ne_zero (Nat.ne_zero_of_lt hlimit)
  cases place with
  | value => exact absurd rfl hplace
  | _ => rfl

section Value

variable {stack : List Bracket} {c : Char} {s s' u : Text}

theorem Skips.closing {place : Place} (hplace : place ≠ .value) {bracket : Bracket}
    (h : Skips .after stack s' u) (hfront : skipBlank s = bracket.closing :: s') : Skips place (bracket :: stack) s u := by
  have hle := length_skipBlank s
  rw [hfront, List.length_cons] at hle
  refine h.step (Nat.le_of_succ_le hle) ?_ ?_
  · simp [stepsFrom]
    omega
  · intro limit rest _
    cases place with
    | value => exact absurd rfl hplace
    | _ =>
      rw [skip, skipBlank_append_of_cons hfront]
      simp only [if_true]

theorem Skips.bracket (bracket : Bracket) (h : Skips .opened (bracket :: stack) s' u)
    (hfront : skipBlank s = bracket.opening :: s') : Skips .value stack s u := by
  have hle := length_skipBlank s
  rw [hfront, List.length_cons] at hle
  refine h.step (Nat.le_of_succ_le hle) ?_ ?_
  · simp [stepsFrom]
    omega
  · intro limit rest _
    rw [← skip_value_skipBlank, skipBlank_append_of_cons hfront, skip_opening]

/-- A scalar in front, which `pass` passes over behind its first character. -/
theorem Skips.scalar {s'' : Text} (h : Skips .after stack s'' u) (hfront : skipBlank s = c :: s')
    (hlength : s''.length ≤ s'.length) (pass : Text → Except Fault Text)
    (hpass : ∀ {rest}, (s'' = [] → Ends rest) → pass (s' ++ rest) = .ok (s'' ++ rest))
    (hskip : ∀ limit s, skip (limit + 1) .value stack (c :: s) = (pass s).bind (skip limit .after stack)) :
    Skips .value stack s u := by
  have hle := length_skipBlank s
  rw [hfront, List.length_cons] at hle
  refine h.step (by omega) ?_ ?_
  · simp [stepsFrom]
    omega
  · intro limit rest hends
    rw [← skip_value_skipBlank, skipBlank_append_of_cons hfront, hskip, hpass hends]
    rfl

end Value

theorem skips_of_skip {limit : Nat} {place : Place} {stack : List Bracket} {s u : Text}
    (h : skip limit place stack s = .ok u) : Skips place stack s u := by
  induction limit generalizing place stack s with
  | zero => cases h
  | succ limit ih =>
    have hle := length_skipBlank s
    cases place with
    | after =>
      cases stack with
      | nil =>
        cases h
        exact skips_end (by decide) u
      | cons bracket outer =>
        rw [skip] at h
        split at h
        · cases h
        · rename_i c s' heq
          rw [heq, List.length_cons] at hle
          split at h
          · rename_i hc
            subst hc
            exact (ih h).closing (by decide) heq
          · rename_i hc
            split at h
            · rename_i hcomma
              obtain ⟨s'', hto, h⟩ := bind_eq_ok h
              have hle' := (skipToValue_append hto []).1
              refine (ih h).step (by omega) (by simp [stepsFrom]; omega) ?_
              intro limit rest _
              rw [skip, skipBlank_append_of_cons heq]
              simp only [if_neg hc, if_pos hcomma, (skipToValue_append hto rest).2, bind, Except.bind]
            · cases h
    | opened =>
      cases stack with
      | nil =>
        cases h
        exact skips_end (by decide) u
      | cons bracket outer =>
        rw [skip] at h
        split at h
        · cases h
        · rename_i c s' heq
          rw [heq, List.length_cons] at hle
          split at h
          · rename_i hc
            subst hc
            exact (ih h).closing (by decide) heq
          · rename_i hc
            obtain ⟨s'', hto, h⟩ := bind_eq_ok h
            have hle' := (skipToValue_append hto []).1
            rw [List.length_cons] at hle'
            refine (ih h).step (by omega) (by simp [stepsFrom]; omega) ?_
            intro limit rest _
            have hto' := (skipToValue_append hto rest).2
            rw [List.cons_append] at hto'
            rw [skip, skipBlank_append_of_cons heq]
            simp only [if_neg hc, hto', bind, Except.bind]
    | value =>
      rw [skip] at h
      split at h
      all_goals rename_i heq
      · cases h
      · exact .bracket .array (ih h) heq
      · exact .bracket .object (ih h) heq
      · obtain ⟨s'', hpass, h⟩ := bind_eq_ok h
        have happend := skipText_append hpass
        exact (ih h).scalar heq (Nat.le_of_lt (happend []).1) skipText (fun _ => (happend _).2) fun _ _ => rfl
      · obtain ⟨s'', hpass, h⟩ := bind_eq_ok h
        have happend := readLetters_append hpass
        exact (ih h).scalar heq (happend []).1 _ (fun _ => (happend _).2) fun _ _ => rfl
      · obtain ⟨s'', hpass, h⟩ := bind_eq_ok h
        have happend := readLetters_append hpass
        exact (ih h).scalar heq (happend []).1 _ (fun _ => (happend _).2) fun _ _ => rfl
      · obtain ⟨s'', hpass, h⟩ := bind_eq_ok h
        have happend := readLetters_append hpass
        exact (ih h).scalar heq (happend []).1 _ (fun _ => (happend _).2) fun _ _ => rfl
      · split at h
        · rename_i hc
          obtain ⟨s'', hpass, h⟩ := bind_eq_ok h
          obtain ⟨hlength, happend⟩ := skipNumber_append hpass
          exact (ih h).scalar heq (Nat.le_of_lt_succ hlength) (fun s => skipNumber (_ :: s)) happend
            fun limit s => skip_number hc limit stack s
        · cases h

theorem skipValue_append {limit : Nat} {s u : Text} (h : skipValue limit s = .ok u) :
    u.length ≤ s.length ∧ ∀ {limit' rest}, (u = [] → Ends rest) → (s ++ rest).length < limit' →
      skipValue limit' (s ++ rest) = .ok (u ++ rest) := by
  have hskips := skips_of_skip h
  refine ⟨hskips.length, ?_⟩
  intro limit' rest hends hlimit
  apply hskips.append hends
  simp [stepsFrom] at hlimit ⊢
  omega

end StepScope.Json
