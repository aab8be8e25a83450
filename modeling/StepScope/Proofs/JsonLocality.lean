import Mathlib.Data.List.TakeWhile
import StepScope.Proofs.JsonValues

/-!
Reading a value does not depend on what follows it. A text that is read on its own is read the same way in
front of whatever may follow a value, and then nothing of that is taken.
-/

namespace StepScope.Json

/-- What is left of a text is no longer than the text. Nothing changes for what was read if more text follows,
so long as a value that goes up to the end of the text is still at its end. The bound on the number of
steps is above the length of the text. -/
structure Local {α : Type} (r : Nat → Reader α) : Prop where
  length : ∀ limit {t a u}, r limit t = .ok (a, u) → u.length ≤ t.length
  append : ∀ limit {limit' t a u rest}, r limit t = .ok (a, u) → (u = [] → Ends rest) →
    (t ++ rest).length < limit' → r limit' (t ++ rest) = .ok (a, u ++ rest)

theorem ends_of_length_le {u v rest : Text} (hle : v.length ≤ u.length) (hends : v = [] → Ends rest) :
    u = [] → Ends rest := by
  rintro rfl
  exact hends (List.eq_nil_of_length_eq_zero (Nat.le_zero.1 hle))

namespace Local

variable {α β : Type}

theorem pure (a : α) : Local fun _ s => .ok (a, s) := by
  constructor
  · intro limit t b u h
    cases h
    exact Nat.le_refl _
  · intro limit limit' t b u rest h _ _
    cases h
    rfl

theorem error (fault : Fault) : Local fun _ _ => (.error fault : Except Fault (α × Text)) :=
  ⟨nofun, nofun⟩

theorem bind {r : Nat → Reader α} {g : α → Nat → Reader β} (hr : Local r) (hg : ∀ a, Local (g a)) :
    Local fun limit s => r limit s >>= fun p => g p.1 limit p.2 := by
  constructor
  · intro limit t b v h
    obtain ⟨⟨a, u⟩, hread, hnext⟩ := bind_eq_ok h
    exact Nat.le_trans ((hg a).length limit hnext) (hr.length limit hread)
  · intro limit limit' t b v rest h hends hlimit
    obtain ⟨⟨a, u⟩, hread, hnext⟩ := bind_eq_ok h
    have hle := (hg a).length limit hnext
    have hend : u = [] → Ends rest := ends_of_length_le hle hends
    have hlength := hr.length limit hread
    have hlimit' : (u ++ rest).length < limit' := by
      rw [List.length_append] at hlimit ⊢
      omega
    simp only [hr.append limit hread hend hlimit]
    exact (hg a).append limit hnext hends hlimit'

theorem map {r : Nat → Reader α} (hr : Local r) (f : α → β) :
    Local fun limit s => (r limit s).map fun p => (f p.1, p.2) := by
  have h := hr.bind fun a => Local.pure (f a)
  have heq : (fun (limit : Nat) (s : Text) => (r limit s).map fun p => (f p.1, p.2)) =
      fun limit s => r limit s >>= fun p => .ok (f p.1, p.2) := by
    funext limit s
    cases r limit s <;> rfl
  rwa [heq]

theorem congr {r r' : Nat → Reader α} (hr : Local r) (h : ∀ limit s, r' limit s = r limit s) : Local r' := by
  have heq : r' = r := by
    funext limit s
    exact h limit s
  rwa [heq]

theorem ite {r r' : Nat → Reader α} (c : Prop) [Decidable c] (hr : Local r)
    (hr' : Local r') : Local fun limit s => if c then r limit s else r' limit s := by
  by_cases hc : c
  · simpa only [if_pos hc] using hr
  · simpa only [if_neg hc] using hr'

end Local

/-- Where a text does not begin with a mark, neither does it with more text behind it. -/
theorem ne_mark_append {mark : Char} {t rest : Text} (hmark : mark ∉ [',', ']', '\x7d'])
    (ht : ∀ s, t = mark :: s → False) (hends : t = [] → Ends rest) :
    ∀ s, t ++ rest = mark :: s → False := by
  intro s hs
  cases t with
  | nil =>
    have hrest : Ends (mark :: s) := hs ▸ hends rfl
    cases hrest <;> exact hmark (by decide)
  | cons c t =>
    cases hs
    exact ht _ rfl

/-! Numbers -/

theorem readDigits_eq_ok {t digits u : Text} (h : readDigits t = .ok (digits, u)) :
    Digits digits ∧ t = digits ++ u ∧ ∀ c, u.head? = some c → c.isDigit = false := by
  have hparts : digits ≠ [] ∧ t.takeWhile Char.isDigit = digits ∧ t.dropWhile Char.isDigit = u := by
    unfold readDigits at h
    split at h
    · cases h
    · cases h
    · rename_i hne hne'
      cases h
      refine ⟨?_, rfl, rfl⟩
      intro hnil
      cases hdrop : t.dropWhile Char.isDigit with
      | nil => exact hne hnil hdrop
      | cons c s => exact hne' c s hnil hdrop
  obtain ⟨hne, rfl, rfl⟩ := hparts
  refine ⟨⟨hne, fun c hc => List.mem_takeWhile_imp hc⟩, List.takeWhile_append_dropWhile.symm, ?_⟩
  intro c hc
  have hhead := List.head?_dropWhile_not Char.isDigit t
  rw [hc] at hhead
  simpa using hhead

theorem local_readDigits : Local fun _ => readDigits := by
  constructor
  · intro limit t digits u h
    obtain ⟨_, rfl, _⟩ := readDigits_eq_ok h
    simp
  · intro limit limit' t digits u rest h hends _
    obtain ⟨hdigits, rfl, hhead⟩ := readDigits_eq_ok h
    rw [List.append_assoc]
    apply hdigits.readDigits
    intro c hc
    cases u with
    | nil => exact (hends rfl).not_isDigit hc
    | cons b u => exact hhead c hc

theorem local_readWhole : Local fun _ => readWhole := by
  constructor
  · intro limit t whole u h
    unfold readWhole at h
    split at h
    · split at h
      · split at h
        · cases h
        · cases h
          simp
      · cases h
        simp
    · exact local_readDigits.length 0 h
  · intro limit limit' t whole u rest h hends hlimit
    unfold readWhole at h
    split at h
    · split at h
      · rename_i c s
        split at h
        · cases h
        · rename_i hc
          cases h
          simp only [List.cons_append, readWhole, hc]
          rfl
      · cases h
        cases rest with
        | nil => rfl
        | cons c s =>
          have hc : c.isDigit = false := (hends rfl).not_isDigit rfl
          simp [readWhole, hc]
    · rename_i hzero
      have hread : readDigits (t ++ rest) = .ok (whole, u ++ rest) :=
        local_readDigits.append 0 h hends hlimit
      have hne : t ≠ [] := by
        rintro rfl
        cases h
      rw [← hread, readWhole]
      exact ne_mark_append (by decide) hzero fun h => absurd h hne

theorem local_readFraction : Local fun _ => readFraction := by
  constructor
  · intro limit t fraction u h
    unfold readFraction at h
    split at h
    · exact Nat.le_succ_of_le (local_readDigits.length 0 h)
    · cases h
      exact Nat.le_refl _
  · intro limit limit' t fraction u rest h hends _
    unfold readFraction at h
    split at h
    · exact local_readDigits.append 0 h hends (Nat.lt_succ_self _)
    · rename_i hpoint
      cases h
      rw [readFraction]
      exact ne_mark_append (by decide) hpoint hends

theorem local_readExponent : Local fun _ => readExponent := by
  have hplus := local_readDigits.map fun digits => (value digits : Int)
  have hminus := local_readDigits.map fun digits => -(value digits : Int)
  constructor
  · intro limit t e u h
    unfold readExponent at h
    split at h
    · exact Nat.le_succ_of_le (hminus.length 0 h)
    · exact Nat.le_succ_of_le (hplus.length 0 h)
    · exact hplus.length 0 h
  · intro limit limit' t e u rest h hends _
    unfold readExponent at h
    split at h
    · exact hminus.append 0 h hends (Nat.lt_succ_self _)
    · exact hplus.append 0 h hends (Nat.lt_succ_self _)
    · rename_i hminusSign hplusSign
      have hne : t ≠ [] := by
        rintro rfl
        cases h
      rw [← hplus.append 0 h hends (Nat.lt_succ_self _), readExponent]
      · exact ne_mark_append (by decide) hminusSign fun h => absurd h hne
      · exact ne_mark_append (by decide) hplusSign fun h => absurd h hne

theorem local_readScale : Local fun _ => readScale := by
  have hexponent := local_readExponent.map some
  constructor
  · intro limit t e u h
    unfold readScale at h
    split at h
    · exact Nat.le_succ_of_le (hexponent.length 0 h)
    · exact Nat.le_succ_of_le (hexponent.length 0 h)
    · cases h
      exact Nat.le_refl _
  · intro limit limit' t e u rest h hends _
    unfold readScale at h
    split at h
    · exact hexponent.append 0 h hends (Nat.lt_succ_self _)
    · exact hexponent.append 0 h hends (Nat.lt_succ_self _)
    · rename_i hsmall hcapital
      cases h
      rw [readScale]
      · exact ne_mark_append (by decide) hsmall hends
      · exact ne_mark_append (by decide) hcapital hends

theorem local_readUnsigned (negative : Bool) : Local fun _ => readUnsigned negative := by
  have h := local_readWhole.bind fun whole => local_readFraction.bind fun fraction =>
    local_readScale.map fun exponent => ({ negative, whole, fraction, exponent } : Literal)
  refine h.congr ?_
  intro _ s
  unfold readUnsigned
  cases readWhole s with
  | error fault => rfl
  | ok whole =>
    cases hfraction : readFraction whole.2 with
    | error fault =>
      simp only [bind, Except.bind, hfraction]
    | ok fraction =>
      cases hscale : readScale fraction.2 with
      | error fault => simp only [bind, Except.bind, hfraction, hscale, Except.map]
      | ok scale =>
        simp only [bind, Except.bind, hfraction, hscale, Except.map]
        rfl

theorem local_readLiteral : Local fun _ => readLiteral := by
  constructor
  · intro limit t literal u h
    unfold readLiteral at h
    split at h
    · exact Nat.le_succ_of_le ((local_readUnsigned true).length 0 h)
    · exact (local_readUnsigned false).length 0 h
  · intro limit limit' t literal u rest h hends _
    unfold readLiteral at h
    split at h
    · exact (local_readUnsigned true).append 0 h hends (Nat.lt_succ_self _)
    · rename_i hminus
      have hne : t ≠ [] := by
        rintro rfl
        cases h
      rw [← (local_readUnsigned false).append 0 h hends (Nat.lt_succ_self _), readLiteral]
      exact ne_mark_append (by decide) hminus fun h => absurd h hne

theorem local_readNumber : Local fun _ => readNumber := by
  have hnext : ∀ literal : Literal, Local fun _ s => literal.natural?.elim
      (if literal.tooLarge then .error .malformed else .ok (.number, s))
      fun n => .ok (Token.natural n, s) := by
    intro literal
    cases literal.natural? with
    | none => exact .ite _ (.error .malformed) (.pure Token.number)
    | some n => exact .pure (Token.natural n)
  refine (local_readLiteral.bind hnext).congr ?_
  intro _ s
  unfold readNumber
  cases readLiteral s with
  | error fault => rfl
  | ok found => cases hn : found.1.natural? <;> simp only [bind, Except.bind, hn, Option.elim]

theorem length_readWhole {t whole u : Text} (h : readWhole t = .ok (whole, u)) : u.length < t.length := by
  have hdigits : ∀ {t digits u : Text}, readDigits t = .ok (digits, u) → u.length < t.length := by
    intro t digits u h
    obtain ⟨hdigits, rfl, _⟩ := readDigits_eq_ok h
    have hpos := List.length_pos_of_ne_nil hdigits.1
    rw [List.length_append]
    omega
  unfold readWhole at h
  split at h
  · split at h
    · split at h
      · cases h
      · cases h
        simp
    · cases h
      simp
  · exact hdigits h

theorem length_readUnsigned {negative : Bool} {t u : Text} {literal : Literal}
    (h : readUnsigned negative t = .ok (literal, u)) : u.length < t.length := by
  obtain ⟨⟨whole, s⟩, hwhole, h⟩ := bind_eq_ok h
  obtain ⟨⟨fraction, s'⟩, hfraction, h⟩ := bind_eq_ok h
  obtain ⟨⟨exponent, s''⟩, hscale, h⟩ := bind_eq_ok h
  cases h
  have hlt := length_readWhole hwhole
  have hle := local_readFraction.length 0 hfraction
  have hle' := local_readScale.length 0 hscale
  exact Nat.lt_of_le_of_lt (Nat.le_trans hle' hle) hlt

theorem length_readLiteral {t u : Text} {literal : Literal} (h : readLiteral t = .ok (literal, u)) :
    u.length < t.length := by
  unfold readLiteral at h
  split at h
  · exact Nat.lt_succ_of_lt (length_readUnsigned h)
  · exact length_readUnsigned h

theorem length_readNumber {t u : Text} {token : Token} (h : readNumber t = .ok (token, u)) :
    u.length < t.length := by
  obtain ⟨⟨literal, s⟩, hliteral, h⟩ := bind_eq_ok h
  have hlt := length_readLiteral hliteral
  simp only at h
  split at h
  · cases h
    exact hlt
  · split at h
    · cases h
    · cases h
      exact hlt

/-! Strings -/

theorem readUnit_append {s u : Text} {n : Nat} (h : readUnit s = .ok (n, u)) (rest : Text) :
    readUnit (s ++ rest) = .ok (n, u ++ rest) := by
  unfold readUnit at h
  split at h
  · split at h
    · rename_i ha hb hc hd
      cases h
      simp only [List.cons_append, readUnit, ha, hb, hc, hd]
    · cases h
  · split at h <;> cases h

theorem readLowHalf_append {high : Nat} {s u : Text} {c : Char} (h : readLowHalf high s = .ok (c, u))
    (rest : Text) : readLowHalf high (s ++ rest) = .ok (c, u ++ rest) := by
  unfold readLowHalf at h
  split at h
  · cases h
  · cases h
  · obtain ⟨⟨low, s'⟩, hunit, h⟩ := bind_eq_ok h
    simp only [List.cons_append, readLowHalf, readUnit_append hunit, bind, Except.bind]
    simp only at h
    split at h
    · rename_i hlow
      simp only [Except.ok.injEq, Prod.mk.injEq] at h
      obtain ⟨rfl, rfl⟩ := h
      rw [if_pos hlow]
    · cases h
  · cases h

theorem readCode_append {s u : Text} {c : Char} (h : readCode s = .ok (c, u)) (rest : Text) :
    readCode (s ++ rest) = .ok (c, u ++ rest) := by
  obtain ⟨⟨unit, s'⟩, hunit, h⟩ := bind_eq_ok h
  simp only [readCode, readUnit_append hunit, bind, Except.bind]
  simp only at h
  split at h
  · cases h
  · rename_i hlow
    rw [if_neg hlow]
    split at h
    · rename_i hhigh
      rw [if_pos hhigh]
      exact readLowHalf_append h rest
    · rename_i hhigh
      cases h
      rw [if_neg hhigh]

theorem readEscape_append {s u : Text} {c : Char} (h : readEscape s = .ok (c, u)) (rest : Text) :
    readEscape (s ++ rest) = .ok (c, u ++ rest) := by
  unfold readEscape at h
  split at h
  · cases h
  · split at h
    · rename_i hescaped
      cases h
      simp only [List.cons_append, readEscape, hescaped]
    · rename_i hescaped
      split at h
      · rename_i hc
        simp only [List.cons_append, readEscape, hescaped, if_pos hc]
        exact readCode_append h rest
      · cases h

theorem readText_quote (s : Text) : readText ('"' :: s) = .ok ([], s) := by
  rw [readText, if_pos rfl]

theorem readText_backslash {s s' : Text} {c : Char} (h : readEscape s = .ok (c, s')) :
    readText ('\\' :: s) = (readText s').map fun p => (c :: p.1, p.2) := by
  rw [readText, if_neg (by decide), if_pos rfl]
  split
  · rename_i hs
    rw [h] at hs
    cases hs
  · rename_i hs
    rw [h] at hs
    cases hs
    rfl

theorem readText_cons {c : Char} (hquote : c ≠ '"') (hbackslash : c ≠ '\\') (hc : ¬ c.toNat < 0x20)
    (s : Text) : readText (c :: s) = (readText s).map fun p => (c :: p.1, p.2) := by
  rw [readText, if_neg hquote, if_neg hbackslash, if_neg hc]

theorem readText_append {s t u : Text} (h : readText s = .ok (t, u)) (rest : Text) :
    u.length < s.length ∧ readText (s ++ rest) = .ok (t, u ++ rest) := by
  fun_induction readText s generalizing t with
  | case1 => cases h
  | case2 s =>
    cases h
    exact ⟨Nat.lt_succ_self _, readText_quote _⟩
  | case3 => cases h
  | case4 s c s' hescape hlength hne ih =>
    obtain ⟨⟨t', u'⟩, hread, hpair⟩ := map_eq_ok h
    cases hpair
    obtain ⟨hlength', happend⟩ := ih hread
    refine ⟨Nat.lt_succ_of_lt (Nat.lt_trans hlength' hlength), ?_⟩
    rw [List.cons_append, readText_backslash (readEscape_append hescape rest), happend]
    rfl
  | case5 => cases h
  | case6 c s hquote hbackslash hc ih =>
    obtain ⟨⟨t', u'⟩, hread, hpair⟩ := map_eq_ok h
    cases hpair
    obtain ⟨hlength', happend⟩ := ih hread
    refine ⟨Nat.lt_succ_of_lt hlength', ?_⟩
    rw [List.cons_append, readText_cons hquote hbackslash hc, happend]
    rfl

theorem readLetters_append {letters s u : Text} (h : readLetters letters s = .ok u) (rest : Text) :
    u.length ≤ s.length ∧ readLetters letters (s ++ rest) = .ok (u ++ rest) := by
  induction letters generalizing s with
  | nil =>
    cases h
    exact ⟨Nat.le_refl _, rfl⟩
  | cons letter letters ih =>
    cases s with
    | nil => cases h
    | cons c s =>
      rw [readLetters] at h
      split at h
      · rename_i hc
        obtain ⟨hlength, happend⟩ := ih h
        refine ⟨Nat.le_succ_of_le hlength, ?_⟩
        rw [List.cons_append, readLetters, if_pos hc, happend]
      · cases h

/-! Tokens -/

theorem length_skipBlank (s : Text) : (skipBlank s).length ≤ s.length :=
  (List.dropWhile_suffix isBlank).length_le

theorem skipBlank_append_of_cons {s s' : Text} {c : Char} (h : skipBlank s = c :: s') (rest : Text) :
    skipBlank (s ++ rest) = c :: (s' ++ rest) := by
  have hne : ((s.dropWhile isBlank).isEmpty = true) = False := by
    rw [show s.dropWhile isBlank = c :: s' from h]
    simp
  rw [skipBlank, List.dropWhile_append, if_neg (by rw [hne]; exact not_false), ← skipBlank, h]
  rfl

@[simp] theorem readToken_skipBlank (s : Text) : readToken (skipBlank s) = readToken s := by
  rw [readToken, readToken, skipBlank_skipBlank]

theorem readToken_number {c : Char} (hc : c = '-' ∨ c.isDigit = true) (s : Text) :
    readToken (c :: s) = readNumber (c :: s) := by
  have hne := ne_of_number hc
  simp only [List.mem_cons, not_or] at hne
  rw [readToken, skipBlank_cons (isBlank_of_number hc)]
  split
  all_goals rename_i heq
  all_goals simp [hne] at heq
  obtain ⟨rfl, rfl⟩ := heq
  rw [if_pos hc]

/-- A token takes a part of the text, and the same part if more text follows. -/
theorem readToken_append {s u : Text} {token : Token} (h : readToken s = .ok (token, u)) :
    u.length < s.length ∧
      ∀ {rest}, (u = [] → Ends rest) → readToken (s ++ rest) = .ok (token, u ++ rest) := by
  have hle := length_skipBlank s
  have hfront : ∀ {c s' rest}, skipBlank s = c :: s' →
      readToken (s ++ rest) = readToken (c :: (s' ++ rest)) := by
    intro c s' rest heq
    rw [← readToken_skipBlank, skipBlank_append_of_cons heq]
  have hletters : ∀ {c letters s'} {token' : Token}, skipBlank s = c :: s' →
      (∀ s, readToken (c :: s) = (readLetters letters s).map fun rest => (token', rest)) →
      ((readLetters letters s').map fun rest => (token', rest)) = .ok (token, u) →
      u.length < s.length ∧ ∀ {rest}, readToken (s ++ rest) = .ok (token, u ++ rest) := by
    intro c letters s' token' heq hread h
    obtain ⟨u', hu', hpair⟩ := map_eq_ok h
    cases hpair
    rw [heq] at hle
    refine ⟨Nat.lt_of_le_of_lt (readLetters_append hu' []).1 hle, ?_⟩
    intro rest
    rw [hfront heq, hread, (readLetters_append hu' rest).2]
    rfl
  unfold readToken at h
  split at h
  all_goals rename_i heq
  · cases h
  · obtain ⟨⟨t, u'⟩, hread, hpair⟩ := map_eq_ok h
    cases hpair
    rw [heq] at hle
    refine ⟨Nat.lt_trans (readText_append hread []).1 hle, ?_⟩
    intro rest _
    have htoken : ∀ s, readToken ('"' :: s) = (readText s).map fun p => (.text p.1, p.2) := fun _ => rfl
    rw [hfront heq, htoken, (readText_append hread rest).2]
    rfl
  · cases h
    rw [heq] at hle
    refine ⟨hle, ?_⟩
    intro rest _
    rw [hfront heq]
    rfl
  · cases h
    rw [heq] at hle
    refine ⟨hle, ?_⟩
    intro rest _
    rw [hfront heq]
    rfl
  · obtain ⟨hlength, happend⟩ := hletters heq (fun _ => rfl) h
    exact ⟨hlength, fun _ => happend⟩
  · obtain ⟨hlength, happend⟩ := hletters heq (fun _ => rfl) h
    exact ⟨hlength, fun _ => happend⟩
  · obtain ⟨hlength, happend⟩ := hletters heq (fun _ => rfl) h
    exact ⟨hlength, fun _ => happend⟩
  · split at h
    · rename_i c s' _ _ _ _ _ _ hc
      rw [heq] at hle
      refine ⟨Nat.lt_of_lt_of_le (length_readNumber h) hle, ?_⟩
      intro rest hends
      rw [hfront heq, readToken_number hc]
      exact local_readNumber.append 0 h hends (Nat.lt_succ_self _)
    · cases h

theorem readToken_front {s u : Text} {token : Token} (h : readToken s = .ok (token, u)) :
    ∃ c s', skipBlank s = c :: s' ∧ c ≠ ']' := by
  rw [← readToken_skipBlank] at h
  cases hfront : skipBlank s with
  | nil =>
    rw [hfront] at h
    cases h
  | cons c s' =>
    refine ⟨c, s', rfl, ?_⟩
    rintro rfl
    rw [hfront] at h
    cases h

/-- A reader that looks at the first token and goes on from there. -/
def Tokenwise {α : Type} (r : Nat → Reader α) : Prop :=
  ∃ g : Token → Nat → Reader α, (∀ token, Local (g token)) ∧
    ∀ limit s, r limit s = readToken s >>= fun p => g p.1 limit p.2

namespace Tokenwise

variable {α β : Type} {r : Nat → Reader α} {limit : Nat} {s u : Text} {a : α}

theorem length (h : Tokenwise r) (hread : r limit s = .ok (a, u)) : u.length < s.length := by
  obtain ⟨g, hg, heq⟩ := h
  rw [heq] at hread
  obtain ⟨⟨token, s'⟩, htoken, hread⟩ := bind_eq_ok hread
  exact Nat.lt_of_le_of_lt ((hg token).length limit hread) (readToken_append htoken).1

theorem isLocal (h : Tokenwise r) : Local r := by
  obtain ⟨g, hg, heq⟩ := h
  have htoken : Local fun _ => readToken :=
    ⟨fun _ _ _ _ h => Nat.le_of_lt (readToken_append h).1, fun _ _ _ _ _ _ h hends _ =>
      (readToken_append h).2 hends⟩
  exact (htoken.bind hg).congr heq

theorem front (h : Tokenwise r) (hread : r limit s = .ok (a, u)) :
    ∃ c s', skipBlank s = c :: s' ∧ c ≠ ']' := by
  obtain ⟨g, hg, heq⟩ := h
  rw [heq] at hread
  obtain ⟨p, htoken, _⟩ := bind_eq_ok hread
  exact readToken_front htoken

theorem skipBlank (h : Tokenwise r) (limit : Nat) (s : Text) : r limit (skipBlank s) = r limit s := by
  obtain ⟨g, hg, heq⟩ := h
  rw [heq, heq, readToken_skipBlank]

theorem map (h : Tokenwise r) (f : α → β) :
    Tokenwise fun limit s => (r limit s).map fun p => (f p.1, p.2) := by
  obtain ⟨g, hg, heq⟩ := h
  refine ⟨fun token limit s => (g token limit s).map fun p => (f p.1, p.2), fun token => (hg token).map f, ?_⟩
  intro limit s
  simp only [heq]
  cases readToken s <;> rfl

theorem of_bind (next : Nat → Token × Text → Except Fault (α × Text))
    (h : ∀ token, Local fun limit s => next limit (token, s)) :
    Tokenwise fun limit s => readToken s >>= next limit :=
  ⟨fun token limit s => next limit (token, s), h, fun _ _ => rfl⟩

end Tokenwise

end StepScope.Json
